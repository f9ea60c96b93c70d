import Phantom.Sending.Flights

namespace Phantom.Sending

open Phantom.Lib

variable {Edu : Type} {config cfg : Config} {worker after : Worker Edu} {label : Label Edu} {dest : Destination}

/-- What the store holds for a destination. -/
structure Tables (Edu : Type) where
  queued : BTreeMap Bytes (Option Edu)
  active : BTreeMap Bytes (Option Edu)
  educount : ℕ

/-- How the store serves a step: what its reads show of the tables, what its writes leave of them, and whether it accepts
    the writes of `select_events`, which are those whose error is returned. -/
structure Store (Edu : Type) where
  shows : Destination → Tables Edu → Tables Edu
  leaves : Destination → Tables Edu → Tables Edu
  accepts : Bool

def Store.sound : Store Edu := ⟨fun _ tables => tables, fun _ tables => tables, true⟩

def Outgoing.through (view : Tables Edu → Tables Edu) (outgoing : Outgoing Edu) : Outgoing Edu :=
  let tables := view ⟨outgoing.queued, outgoing.active, outgoing.educount⟩
  { outgoing with queued := tables.queued, active := tables.active, educount := tables.educount }

namespace Worker

def through (view : Destination → Tables Edu → Tables Edu) (worker : Worker Edu) : Worker Edu :=
  { worker with outgoing := fun dest => (worker.outgoing dest).through (view dest) }

/-- `handle_request` where a write of `select_events` fails: the status was set before, and nothing is sent. -/
def refuseRequest (worker : Worker Edu) : Option (Worker Edu) :=
  match worker.phase, worker.channel with
  | .finishing, _ => none
  | _, [] => none
  | _, msg :: rest =>
    if (worker.outgoing msg.dest).status = none then
      some ({ worker with channel := rest }.change msg.dest { worker.outgoing msg.dest with status := some .running })
    else none

def nextWith (config : Config) (worker : Worker Edu) (step : Label Edu × Store Edu) : Option (Worker Edu) :=
  let reached := match step.1, step.2.accepts with
    | .receive _ _, false => (worker.through step.2.shows).refuseRequest
    | label, _ => (worker.through step.2.shows).next config label
  reached.map (through step.2.leaves)

end Worker

def inFlight : Option TransactionStatus → ℕ
  | some .running => 1
  | some (.retrying _) => 1
  | _ => 0

variable (status : Option TransactionStatus)

theorem busy_iff : Busy status ↔ inFlight status = 1 := by
  cases status with
  | none => simp [Busy, inFlight]
  | some status => cases status <;> simp [Busy, inFlight]

theorem inFlight_le : inFlight status ≤ 1 := by
  cases status with
  | none => simp [inFlight]
  | some status => cases status <;> simp [inFlight]

def Told (outgoing : Outgoing Edu) : Prop := outgoing.futures.length = inFlight outgoing.status

theorem Told.held {outgoing : Outgoing Edu} {index : ℕ} {items : Transaction Edu} (told : Told outgoing)
    (held : outgoing.futures[index]? = some items) :
    inFlight outgoing.status = 1 ∧ (outgoing.complete index).futures.length = 0 := by
  obtain ⟨below, _⟩ := List.getElem?_eq_some_iff.mp held
  have most := inFlight_le outgoing.status
  unfold Told at told
  rw [Outgoing.complete, List.length_eraseIdx_of_lt below]
  omega

def Label.isFinish : Label Edu → Bool
  | .finish _ _ _ => true
  | _ => false

theorem told_moved {phase : Phase} {next : Outgoing Edu} (moved : Moved cfg worker dest label phase next)
    (looping : label.isFinish = false) (told : Told (worker.outgoing dest)) : Told next := by
  cases moved with
  | same phases | queue => exact told
  | receive working first own requested =>
    unfold Told at told
    cases requested with
    | begun free buffers educount => simp [Told, Outgoing.sendEvents, Outgoing.markAsActive, inFlight, told, free]
    | retried failed rows => simp [Told, Outgoing.sendEvents, inFlight, told, failed]
    | dropped failed rows retry => simp [Told, inFlight, told, failed]
    | same => exact told
  | ok working held answered =>
    have done := (told.held held).2
    cases answered with
    | emptied => exact done
    | dequeued rows nonempty listed active gone left status futures =>
      have empty : ((worker.outgoing dest).complete _).futures = [] := List.eq_nil_of_length_eq_zero done
      simp [Told, status, futures, inFlight, Outgoing.acknowledge, empty]
  | err working held how =>
    obtain ⟨busy, done⟩ := told.held held
    rcases how with ⟨_, free⟩ | ⟨_, _, rfl⟩
    · rw [free] at busy
      cases busy
    · exact done
  | finishOk finishing held | finishErr finishing held => cases looping
  | stopped | burst => rfl

/-- The writes of `select_events` are accepted, and the step is of the loop. -/
def accepted (step : Label Edu × Store Edu) : Bool := step.2.accepts && !step.1.isFinish

theorem told_nextWith {step : Label Edu × Store Edu} (clean : accepted step = true)
    (told : ∀ dest, Told (worker.outgoing dest))
    (stepped : worker.nextWith cfg step = some after) (dest : Destination) : Told (after.outgoing dest) := by
  obtain ⟨label, store⟩ := step
  obtain ⟨accepts, looping⟩ : store.accepts = true ∧ label.isFinish = false := by simpa [accepted] using clean
  simp only [Worker.nextWith, accepts] at stepped
  obtain ⟨middle, moved, rfl⟩ := Option.map_eq_some_iff.mp stepped
  -- neither view of the tables changes a status or what is in flight
  have kept : Told (middle.outgoing dest) := told_moved (next_moved moved dest) looping (told dest)
  exact kept

/-- Whatever the store shows and leaves: as long as it accepts the writes of `select_events` and the loop runs, a
    status tells
    of a transaction just where one is in flight, there is at most one, and none can fail that is not running. -/
theorem status_tells_of_flight {labels : List (Label Edu × Store Edu)}
    (run : Run (fun worker step after => accepted step = true ∧
    Worker.nextWith config worker step = some after) Worker.empty labels worker)
    (dest : Destination) : (Busy (worker.outgoing dest).status ↔ (worker.outgoing dest).futures.length = 1) ∧
    (worker.outgoing dest).futures.length ≤ 1 ∧
    ∀ (index now : ℕ) items, (worker.outgoing dest).futures[index]? = some items →
      ((worker.outgoing dest).complete index).handleResponseErr now ≠ none := by
  have fresh : ∀ dest, Told ((Worker.empty : Worker Edu).outgoing dest) := fun _ => rfl
  have told : Told (worker.outgoing dest) := run.invariant (fun worker => ∀ dest, Told (worker.outgoing dest))
      (fun _ _ _ told step => told_nextWith step.1 told step.2) fresh dest
  refine ⟨?_, ?_, ?_⟩
  · rw [busy_iff, told]
  · rw [told]
    exact inFlight_le _
  · intro index now items held
    have busy := (told.held held).1
    have status : ((worker.outgoing dest).complete index).status = (worker.outgoing dest).status := rfl
    unfold Outgoing.handleResponseErr
    rw [status]
    cases flight : (worker.outgoing dest).status with
    | none => simp
    | some entry =>
      cases entry <;> simp_all [inFlight]

namespace Sample

theorem status_tells_of_hello : ∃ worker, Run (fun worker step after => accepted step = true ∧
    Worker.nextWith network worker step = some after) Worker.empty
      [(.queue far hello, .sound), (.receive 0 ([], 0), .sound), (.respond far 0 false 5, .sound),
      (.queue far goodbye, .sound),
        (.receive 400 ([], 0), .sound)] worker ∧ Busy (worker.outgoing far).status :=
  Run.exists_of_allowing (fun worker => (worker.outgoing far).futures.length = 1) (by decide +kernel)
    (fun _ run one => (status_tells_of_flight run far).1.mpr one)

/-- The store refuses to mark an event as active: the destination is left running with nothing in flight. -/
theorem refused_write_keeps_running : ∃ worker,
    Run (fun worker step after => Worker.nextWith network worker step = some after)
    Worker.empty [(.queue far hello, .sound), (.receive 0 ([], 0), { Store.sound with accepts := false })] worker ∧
    (worker.outgoing far).status = some .running ∧ (worker.outgoing far).futures = [] :=
  Run.exists_of_foldlM (fun worker => (worker.outgoing far).status = some .running ∧ (worker.outgoing far).futures = [])
    (by decide +kernel) (fun _ _ _ step => step) (fun _ _ held => held)

end Sample

end Phantom.Sending
