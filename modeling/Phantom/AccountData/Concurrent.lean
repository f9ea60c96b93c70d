import Phantom.AccountData.Store
import Phantom.Lib.Journal
import Phantom.Lib.Serial

namespace Phantom.AccountData

open Phantom.Lib Phantom.Matrix

inductive DataReport where
  | drew (key : Key) (count : ℕ) (data : Json)
  | stored (key : Key) (count : ℕ) (data : Json)
  | looked (key : Key) (count : ℕ) (prev : Option DataId)
  | pointed (key : Key) (count : ℕ)
  | removed (dataId : DataId)

def DataReport.count : DataReport → Option ℕ
  | drew _ count _ | stored _ count _ | looked _ count _ | pointed _ count => some count
  | removed _ => none

namespace Tables

def counted (tables : Tables) : Tables := { tables with count := tables.count + 1 }

def setRow (dataId : DataId) (row : Option Json) (tables : Tables) : Tables :=
  { tables with roomuserdataidAccountdata := Function.update tables.roomuserdataidAccountdata dataId row }

def point (key : Key) (dataId : DataId) (tables : Tables) : Tables :=
  { tables with roomusertypeRoomuserdataid := Function.update tables.roomusertypeRoomuserdataid key (some dataId) }

end Tables

namespace Concurrent

abbrev DataTask := Task Unit DataReport Tables

def nextCount (call : Update) : DataTask ℕ :=
  .step (fun _ _ tables => some ([.drew call.key (tables.count + 1) call.data], tables.counted))
    (fun _ tables => .done (tables.count + 1))

def removePrev : Option DataId → DataTask Unit
  | none => return ()
  | some prev => Task.write [.removed prev] (Tables.setRow prev none)

def update (call : Update) : DataTask (Except DataError Unit) := do
  if ¬ Complete call.data then
    return .error (.invalidParam "Account data doesn't have all required fields.")
  else
    let count ← nextCount call
    Task.write [.stored call.key count call.data] (Tables.setRow (call.key.withCount count) (some call.data))
    let prev ← Task.observe (fun tables => [.looked call.key count (tables.roomusertypeRoomuserdataid call.key)])
      (fun tables => tables.roomusertypeRoomuserdataid call.key)
    Task.write [.pointed call.key count] (Tables.point call.key (call.key.withCount count))
    removePrev prev
    return .ok ()

theorem perform_update (call : Update) (job : ℕ) (w : World DataReport Tables) :
    (Task.perform job () (update call) w).map (fun ended => ended.2.store) =
      some (AccountData.update call.key call.data w.store).2 := by
  rw [update]
  by_cases complete : Complete call.data
  · rw [if_neg (not_not.mpr complete), update_complete complete, written]
    simp only [nextCount, Task.write, Task.observe, Task.step_bind, Task.done_bind, Task.perform, World.after_store,
      Tables.counted, Tables.setRow, Tables.point]
    cases row : w.store.roomusertypeRoomuserdataid call.key with
    | none | some prev => rfl
  · rw [if_pos complete, update_incomplete complete]
    rfl

end Concurrent

abbrev DataWorld := World DataReport Tables

def dataJournal : Journal DataReport Tables where
  record tables
    | .drew _ _ _ => tables.counted
    | .stored key count data => tables.setRow (key.withCount count) (some data)
    | .looked _ _ _ => tables
    | .pointed key count => tables.point key (key.withCount count)
    | .removed dataId => tables.setRow dataId none
  Legal past tables
    | .drew _ count _ => past = [] ∧ count = tables.count + 1
    | .stored key count data => past = [.drew key count data]
    | .looked key count prev =>
      (∃ data, past = [.drew key count data, .stored key count data]) ∧ prev = tables.roomusertypeRoomuserdataid key
    | .pointed key count =>
      ∃ data prev, past = [.drew key count data, .stored key count data, .looked key count prev]
    | .removed dataId => ∃ key count data,
      past = [.drew key count data, .stored key count data, .looked key count (some dataId), .pointed key count]

def script (key : Key) (count : ℕ) (data : Json) (prev : Option DataId) : List DataReport :=
  [.drew key count data, .stored key count data, .looked key count prev, .pointed key count] ++
    (prev.map .removed).toList

section Calls

variable {start : Tables} {world w : DataWorld} {job : ℕ}

def Finished (job : ℕ) (call : Update) (world : DataWorld) : Prop :=
  if Complete call.data then ∃ count prev, world.own job = script call.key count call.data prev
  else world.own job = []

theorem removePrev_spec {call : Update} {count : ℕ} {prev : Option DataId} (complete : Complete call.data)
    (own : w.own job = [.drew call.key count call.data, .stored call.key count call.data,
      .looked call.key count prev, .pointed call.key count]) :
    (dataJournal.protocol start).wp job (fun _ => Finished job call)
      (do Concurrent.removePrev prev; return (.ok () : Except DataError Unit)) w := by
  have finished : ∀ later : DataWorld, later.own job = script call.key count call.data prev →
    Finished job call later := by
    grind [Finished]
  cases prev with
  | none => exact Journal.wp_done own finished
  | some prev =>
    refine Journal.wp_entry own (fun _ _ => rfl) (fun _ => ⟨_, _, _, rfl⟩) ?_
    intro _ removing w own
    exact Journal.wp_done own finished

theorem update_spec (call : Update) (own : w.own job = []) :
    (dataJournal.protocol start).wp job (fun _ => Finished job call) (Concurrent.update call) w := by
  rw [Concurrent.update]
  by_cases complete : Complete call.data
  · rw [if_neg (not_not.mpr complete)]
    refine Journal.wp_entry own (fun _ _ => rfl) (fun _ => ⟨rfl, rfl⟩) ?_
    intro _ drawing w own
    refine Journal.wp_entry own (fun _ _ => rfl) (fun _ => rfl) ?_
    intro _ storing w own
    refine Journal.wp_entry own (fun _ _ => rfl) (fun _ => ⟨⟨_, rfl⟩, rfl⟩) ?_
    intro _ looking w own
    refine Journal.wp_entry own (fun _ _ => rfl) (fun _ => ⟨_, _, rfl⟩) ?_
    intro _ pointing w own
    exact removePrev_spec complete own
  · rw [if_pos complete]
    have finished : ∀ later : DataWorld, later.own job = [] → Finished job call later := by
      grind [Finished]
    exact Journal.wp_done own finished

end Calls

section Entries

variable {start : Tables} {w : DataWorld} {job other : ℕ} {key : Key} {count : ℕ} {data content : Json}
  {prev : Option DataId} {dataId : DataId}
variable {event : DataReport}

def Backed (past : List DataReport) : DataReport → Prop
  | .drew _ _ _ => True
  | .stored key count data => .drew key count data ∈ past
  | .looked key count _ => ∃ data, .drew key count data ∈ past ∧ .stored key count data ∈ past
  | .pointed key count => ∃ data prev, .drew key count data ∈ past ∧ .stored key count data ∈ past ∧
      .looked key count prev ∈ past
  | .removed dataId => ∃ key count, .looked key count (some dataId) ∈ past ∧ .pointed key count ∈ past

theorem Backed.mono {past more : List DataReport} (backed : Backed past event)
    (grows : past ⊆ more) : Backed more event := by
  cases event with
  | drew => exact True.intro
  | stored => exact grows backed
  | looked =>
    obtain ⟨data, drew, stored⟩ := backed
    exact ⟨data, grows drew, grows stored⟩
  | pointed =>
    obtain ⟨data, prev, drew, stored, looked⟩ := backed
    exact ⟨data, prev, grows drew, grows stored, grows looked⟩
  | removed =>
    obtain ⟨key, count, looked, pointed⟩ := backed
    exact ⟨key, count, grows looked, grows pointed⟩

theorem backed_of_legal {past : List DataReport} {t : Tables}
    (legal : dataJournal.Legal past t event) : Backed past event := by
  cases event with
  | drew => exact True.intro
  | stored key count data =>
    rw [show past = _ from legal]
    exact List.mem_singleton_self _
  | looked key count prev =>
    obtain ⟨⟨data, rfl⟩, _⟩ := legal
    exact ⟨data, by simp, by simp⟩
  | pointed key count =>
    obtain ⟨data, prev, rfl⟩ := legal
    exact ⟨data, prev, by simp, by simp, by simp⟩
  | removed dataId =>
    obtain ⟨key, count, data, rfl⟩ := legal
    exact ⟨key, count, by simp, by simp⟩

section

variable (written : dataJournal.Written start w)
include written

theorem backed_of_written (mem : (job, event) ∈ w.trace) : Backed (w.own job) event := by
  have all : ∀ event ∈ w.own job, Backed (w.own job) event := by
    apply written.own_induction fun past => ∀ event ∈ past, Backed past event
    · exact nofun
    · grind [Backed.mono, backed_of_legal]
  exact all event (World.mem_own.mpr mem)

theorem drew_of_looked (looked : (job, .looked key count prev) ∈ w.trace) :
    ∃ data, (job, .drew key count data) ∈ w.trace := by
  obtain ⟨data, drew, _⟩ := backed_of_written written looked
  exact ⟨data, World.mem_own.mp drew⟩

theorem drew_of_pointed (pointed : (job, .pointed key count) ∈ w.trace) :
    ∃ data, (job, .drew key count data) ∈ w.trace := by
  obtain ⟨data, _, drew, _⟩ := backed_of_written written pointed
  exact ⟨data, World.mem_own.mp drew⟩

end

theorem mem_after {t : Tables} {entry : ℕ × DataReport} :
    entry ∈ (w.after job [event] t).trace ↔ entry ∈ w.trace ∨ entry = (job, event) := by
  simp

section

variable (written : dataJournal.Written start w)
include written

theorem drawn_between : start.count ≤ w.store.count ∧ ∀ job key count data, (job, .drew key count data) ∈ w.trace →
      start.count < count ∧ count ≤ w.store.count := by
  induction written with
  | blank => exact ⟨Nat.le_refl _, nofun⟩
  | @entry w job event written legal ih =>
    obtain ⟨grown, drawn⟩ := ih
    have kept : ∀ {t : Tables}, t.count = w.store.count → (∀ key count data, event ≠ .drew key count data) →
        start.count ≤ (w.after job [event] t).store.count ∧
          ∀ other key count data, (other, .drew key count data) ∈ (w.after job [event] t).trace →
            start.count < count ∧ count ≤ (w.after job [event] t).store.count := by
      grind [World.after_store, mem_after]
    cases event with
    | drew key count data =>
      obtain ⟨_, rfl⟩ := legal
      have counter : (dataJournal.record w.store (.drew key (w.store.count + 1) data)).count =
          w.store.count + 1 := rfl
      rw [World.after_store, counter]
      refine ⟨by omega, ?_⟩
      intro other key' n content drew
      rcases mem_after.mp drew with old | new
      · have bounds := drawn other key' n content old
        omega
      · cases new
        omega
    | stored | looked | pointed | removed => exact kept rfl nofun

theorem drawn_once : ∀ {job other key key' count data content}, (job, .drew key count data) ∈ w.trace →
      (other, .drew key' count content) ∈ w.trace → job = other ∧ data = content := by
  induction written with
  | blank => exact nofun
  | @entry w author event written legal ih =>
    intro job other key key' count data content left right
    rcases mem_after.mp left with leftOld | leftNew
    · rcases mem_after.mp right with rightOld | rightNew
      · exact ih leftOld rightOld
      · cases rightNew
        have bounds := (drawn_between written).2 _ _ _ _ leftOld
        have fresh := legal.2
        omega
    · cases leftNew
      rcases mem_after.mp right with rightOld | rightNew
      · have bounds := (drawn_between written).2 _ _ _ _ rightOld
        have fresh := legal.2
        omega
      · cases rightNew
        exact ⟨rfl, rfl⟩

theorem mem_own_of_count (drew : (job, .drew key count data) ∈ w.trace) (mem : (other, event) ∈ w.trace)
    (counted : event.count = some count) : event ∈ w.own job := by
  have drewToo : ∃ key content, (other, .drew key count content) ∈ w.trace := by
    have backed := backed_of_written written mem
    cases event with
    | drew =>
      cases counted
      exact ⟨_, _, mem⟩
    | stored =>
      cases counted
      exact ⟨_, _, World.mem_own.mp backed⟩
    | looked =>
      cases counted
      obtain ⟨content, drew, _⟩ := backed
      exact ⟨_, _, World.mem_own.mp drew⟩
    | pointed =>
      cases counted
      obtain ⟨content, _, drew, _⟩ := backed
      exact ⟨_, _, World.mem_own.mp drew⟩
    | removed => cases counted
  grind [drawn_once, World.mem_own]

end

end Entries

end Phantom.AccountData
