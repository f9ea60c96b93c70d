import Phantom.Lib.Action
import Phantom.Lib.LastWins
import Phantom.Matrix.Event

namespace Phantom.AccountData

open Phantom.Lib Phantom.Matrix

/-- The room, the user and the type. Data that is of no room is global. -/
structure Key where
  roomId : Option RoomId
  userId : UserId
  eventType : String
deriving DecidableEq, Repr

structure DataId where
  roomId : Option RoomId
  userId : UserId
  count : ℕ
  eventType : String
deriving DecidableEq, Repr

def Key.withCount (key : Key) (count : ℕ) : DataId := ⟨key.roomId, key.userId, count, key.eventType⟩

structure Tables where
  count : ℕ
  roomuserdataidAccountdata : DataId → Option Json
  roomusertypeRoomuserdataid : Key → Option DataId

def Tables.empty : Tables := ⟨0, fun _ => none, fun _ => none⟩

inductive DataError where
  | invalidParam (message : String)
deriving DecidableEq, Repr

abbrev DataAction := Action Tables DataError

def nextCount : DataAction ℕ := do
  let tables ← Action.get
  Action.modify fun tables => { tables with count := tables.count + 1 }
  return tables.count + 1

def Complete (data : Json) : Prop := (data.member "type").isSome ∧ (data.member "content").isSome

instance (data : Json) : Decidable (Complete data) :=
  inferInstanceAs (Decidable ((data.member "type").isSome ∧ (data.member "content").isSome))

def update (key : Key) (data : Json) : DataAction Unit := do
  if ¬ Complete data then
    Action.lift (.fail (.invalidParam "Account data doesn't have all required fields."))
  else
    let count ← nextCount
    Action.modify fun tables =>
      { tables with
        roomuserdataidAccountdata := Function.update tables.roomuserdataidAccountdata (key.withCount count) (some data) }
    let tables ← Action.get
    let prev := tables.roomusertypeRoomuserdataid key
    Action.modify (fun tables =>
      { tables with
        roomusertypeRoomuserdataid := Function.update tables.roomusertypeRoomuserdataid key
          (some (key.withCount count)) })
    match prev with
    | none => return ()
    | some prev => Action.modify fun tables =>
        { tables with
          roomuserdataidAccountdata := Function.update tables.roomuserdataidAccountdata prev none }

def getRaw (key : Key) (tables : Tables) : Option Json := do
  let dataId ← tables.roomusertypeRoomuserdataid key
  tables.roomuserdataidAccountdata dataId

structure Update where
  key : Key
  data : Json

def after (calls : List Update) : Tables := calls.foldl (fun tables call => (update call.key call.data tables).2) .empty

def lastStored (calls : List Update) (key : Key) : Option Json :=
  lastSome (fun call => if call.key = key ∧ Complete call.data then some call.data else none) calls

def WellFormed (tables : Tables) : Prop :=
  ∀ key dataId, tables.roomusertypeRoomuserdataid key = some dataId → ∃ count ≤ tables.count, dataId = key.withCount count

section Specs

variable {tables t : Tables} {key other : Key} {data : Json}

theorem withCount_injective {count n : ℕ} (same : key.withCount count = other.withCount n) : key = other ∧ count = n := by
  cases key
  cases same
  exact ⟨rfl, rfl⟩

theorem update_incomplete (incomplete : ¬ Complete data) : (update key data t).2 = t := by
  rw [update, if_pos incomplete]
  rfl

def written (key : Key) (data : Json) (tables : Tables) : Tables where
  count := tables.count + 1
  roomuserdataidAccountdata :=
    let rows := Function.update tables.roomuserdataidAccountdata (key.withCount (tables.count + 1)) (some data)
    match tables.roomusertypeRoomuserdataid key with
    | none => rows
    | some prev => Function.update rows prev none
  roomusertypeRoomuserdataid := Function.update tables.roomusertypeRoomuserdataid key
    (some (key.withCount (tables.count + 1)))

theorem update_complete (complete : Complete data) : (update key data t).2 = written key data t := by
  rw [update, if_neg (not_not.mpr complete), written]
  simp only [Bind.bind, nextCount, Action.get, Action.modify, Pure.pure]
  cases t.roomusertypeRoomuserdataid key <;> rfl

theorem wellFormed_written (wellFormed : WellFormed t) : WellFormed (written key data t) := by
  intro wanted dataId row
  simp only [written] at row
  by_cases same : wanted = key
  · subst same
    rw [Function.update_self] at row
    cases row
    exact ⟨t.count + 1, Nat.le_refl _, rfl⟩
  · rw [Function.update_of_ne same] at row
    obtain ⟨count, bounded, rfl⟩ := wellFormed wanted dataId row
    exact ⟨count, Nat.le_succ_of_le bounded, rfl⟩

theorem getRaw_written (wellFormed : WellFormed t) :
    getRaw other (written key data t) = if other = key then some data else getRaw other t := by
  have kept : ∀ dataId, (∀ count ≤ t.count, dataId ≠ key.withCount count) →
      (written key data t).roomuserdataidAccountdata dataId =
        Function.update t.roomuserdataidAccountdata (key.withCount (t.count + 1)) (some data) dataId := by
    intro dataId elsewhere
    simp only [written]
    cases row : t.roomusertypeRoomuserdataid key with
    | none => rfl
    | some prev =>
      obtain ⟨count, bounded, rfl⟩ := wellFormed key prev row
      exact Function.update_of_ne (elsewhere count bounded) _ _
  split
  · next same =>
    have fresh : ∀ count ≤ t.count, key.withCount (t.count + 1) ≠ key.withCount count := by
      grind [withCount_injective]
    have pointer : (written key data t).roomusertypeRoomuserdataid key = some (key.withCount (t.count + 1)) :=
      Function.update_self _ _ _
    grind [getRaw]
  · next ne =>
    have pointer : (written key data t).roomusertypeRoomuserdataid other =
        t.roomusertypeRoomuserdataid other := Function.update_of_ne ne _ _
    rw [getRaw, getRaw, pointer]
    cases row : t.roomusertypeRoomuserdataid other with
    | none => rfl
    | some dataId =>
      obtain ⟨n, _, rfl⟩ := wellFormed other dataId row
      grind [withCount_injective]

end Specs

variable (calls : List Update)

theorem after_spec : WellFormed (after calls) ∧ ∀ key, getRaw key (after calls) = lastStored calls key := by
  induction calls using List.reverseRecOn with
  | nil => exact ⟨nofun, fun _ => rfl⟩
  | append_singleton calls call ih =>
    obtain ⟨wellFormed, stored⟩ := ih
    have stepped : after (calls ++ [call]) = (update call.key call.data (after calls)).2 := by
      grind [after]
    rw [stepped]
    by_cases complete : Complete call.data
    · rw [update_complete complete]
      refine ⟨wellFormed_written wellFormed, ?_⟩
      intro key
      rw [getRaw_written wellFormed, lastStored, lastSome_concat, stored, lastStored]
      by_cases same : key = call.key
      · rw [if_pos same, if_pos ⟨same.symm, complete⟩]
        rfl
      · rw [if_neg same, if_neg fun both => same both.1.symm]
        rfl
    · rw [update_incomplete complete]
      refine ⟨wellFormed, ?_⟩
      intro key
      rw [lastStored, lastSome_concat, if_neg fun both => complete both.2, stored]
      rfl

theorem getRaw_after (key : Key) : getRaw key (after calls) = lastStored calls key := (after_spec calls).2 key

end Phantom.AccountData
