import Phantom.Lib.Action
import Phantom.Matrix.Event
import Phantom.Rooms.CompressedState

namespace Phantom.Rooms

open Phantom.Lib Phantom.Matrix

inductive Error where
  | arithmetic (message : String)
  | database (message : String)
deriving DecidableEq, Repr

def notFoundInDatabase : String := "M_NOT_FOUND: Not found in database"

structure ShortStateInfo where
  shortstatehash : ShortStateHash
  fullState : CompressedState
  added : CompressedState
  removed : CompressedState
deriving DecidableEq

abbrev Digest := List UInt8
abbrev StateKeyPair := EventType × String

structure Store where
  count : UInt64
  shorteventids : EventId → Option ShortEventId
  eventids : ShortEventId → Option EventId
  shortstatekeys : StateKeyPair → Option ShortStateKey
  statekeys : ShortStateKey → Option StateKeyPair
  shortstatehashes : Digest → Option ShortStateHash
  statediffs : ShortStateHash → Option (List UInt8)
  stateinfoCache : ShortStateHash → Option (List ShortStateInfo)
  roomShortstatehashes : RoomId → Option ShortStateHash
  eventShortstatehashes : ShortEventId → Option ShortStateHash

def Store.empty : Store where
  count := 0
  shorteventids := fun _ => none
  eventids := fun _ => none
  shortstatekeys := fun _ => none
  statekeys := fun _ => none
  shortstatehashes := fun _ => none
  statediffs := fun _ => none
  stateinfoCache := fun _ => none
  roomShortstatehashes := fun _ => none
  eventShortstatehashes := fun _ => none

abbrev StoreAction := Action Store Error

/-- `checked!` on a `usize`. -/
def checked (number : Nat) : Outcome Error Nat :=
  if number < 2 ^ 64 then .ok number
  else .fail (.arithmetic "operation overflowed or result invalid")

def nextCount : StoreAction UInt64 := do
  let store ← Action.get
  if store.count.toNat + 1 < 2 ^ 64 then
    Action.modify fun store => { store with count := store.count + 1 }
    return store.count + 1
  else
    Action.lift (.error (.panic "counter must not overflow u64"))

/-- The `get_or_create_short…` functions: the short id on record, or else a new one that is
    recorded, and whether it was there before. -/
def getOrCreateShort (recorded : Store → Option ShortId) (record : ShortId → Store → Store) :
    StoreAction (ShortId × Bool) := do
  match recorded (← Action.get) with
  | some short => return (short, true)
  | none =>
    let short ← nextCount
    Action.modify (record short)
    return (short, false)

def getOrCreateShorteventid (eventId : EventId) : StoreAction ShortEventId := do
  let (short, _) ← getOrCreateShort (fun store => store.shorteventids eventId)
    (fun short store => { store with
      shorteventids := Function.update store.shorteventids eventId (some short)
      eventids := Function.update store.eventids short (some eventId) })
  return short

def getOrCreateShortstatekey (eventType : EventType) (stateKey : String) : StoreAction ShortStateKey := do
  let (short, _) ← getOrCreateShort (fun store => store.shortstatekeys (eventType, stateKey))
    (fun short store => { store with
      shortstatekeys := Function.update store.shortstatekeys (eventType, stateKey) (some short)
      statekeys := Function.update store.statekeys short (some (eventType, stateKey)) })
  return short

def getOrCreateShortstatehash (stateHash : Digest) : StoreAction (ShortStateHash × Bool) :=
  getOrCreateShort (fun store => store.shortstatehashes stateHash) fun short store => { store with
      shortstatehashes := Function.update store.shortstatehashes stateHash (some short) }

def counterOverflow {ε : Type} : Failure ε := .panic "counter must not overflow u64"

/-- A `checked!` that overflowed, or the counter at its end. -/
def Overflow : Failure Error → Prop
  | .err (.arithmetic _) => True
  | .panic message => message = "counter must not overflow u64"
  | _ => False

section Specs

theorem checked_failsOnly {n : Nat} : (checked n).FailsOnly Overflow := by
  unfold checked
  split
  · exact .ok _
  · exact .fail trivial

def Store.counted (store : Store) : Store := { store with count := store.count + 1 }

/-- The number is the one that the counter gives out next. -/
structure Drew (store : Store) (short : ShortId) : Prop where
  next : short = store.count + 1
  number : short.toNat = store.count.toNat + 1

variable {short : ShortId} {store : Store}

theorem Drew.ne_zero (drew : Drew store short) : short ≠ 0 := by
  rintro rfl
  have number := drew.number
  rw [UInt64.toNat_zero] at number
  omega

theorem Drew.count_eq (drew : Drew store short) : store.counted.count.toNat = store.count.toNat + 1 := by
  rw [← drew.number, drew.next]
  rfl

theorem nextCount_spec (store : Store) :
    nextCount.wp store (fun short after => Drew store short ∧ after = store.counted)
      (fun failure after => failure = counterOverflow ∧ after = store) := by
  rw [nextCount, Action.wp_bind, Action.wp_get]
  split
  · next room =>
    refine ⟨⟨rfl, ?_⟩, rfl⟩
    exact Nat.mod_eq_of_lt room
  · exact ⟨rfl, rfl⟩

theorem getOrCreateShort_spec (recorded : Store → Option ShortId) (record : ShortId → Store → Store) (store : Store) :
    (getOrCreateShort recorded record).wp store (fun (short, existed) after =>
        (existed = true ∧ recorded store = some short ∧ after = store) ∨
        (existed = false ∧ recorded store = none ∧ Drew store short ∧ after = record short store.counted))
      (fun failure after => failure = counterOverflow ∧ after = store) := by
  rw [getOrCreateShort, Action.wp_bind, Action.wp_get]
  split
  · grind [Action.wp_pure]
  · next missing =>
    apply Action.wp_then (nextCount_spec store)
    rintro short after ⟨drew, rfl⟩
    exact Or.inr ⟨rfl, missing, drew, rfl⟩

end Specs

end Phantom.Rooms
