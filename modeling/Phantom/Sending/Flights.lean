import Phantom.Sending.Steps

namespace Phantom.Sending

open Phantom.Lib

variable {Edu : Type} {cfg : Config} {worker : Worker Edu} {label : Label Edu} {dest : Destination}

def Busy : Option TransactionStatus → Prop
  | some .running => True
  | some (.retrying _) => True
  | _ => False

/-- At most one transaction is in flight, none without a status that tells so, and its rows are the active ones. -/
structure Sound (phase : Phase) (outgoing : Outgoing Edu) : Prop where
  one : outgoing.futures.length ≤ 1
  idle : phase ≠ .finishing → ¬ Busy outgoing.status → outgoing.futures = []
  carried : ∀ items ∈ outgoing.futures, ∀ row, .queued row ∈ items → outgoing.active.get row.1 = some row.2

namespace Sound

variable {phase : Phase} {outgoing : Outgoing Edu} {items : Transaction Edu} {index : ℕ}

theorem of_idle (idle : outgoing.futures = []) : Sound phase outgoing :=
  ⟨by rw [idle]; exact Nat.zero_le 1, fun _ _ => idle, by grind⟩

theorem of_flight {before : List (Transaction Edu)} (idle : before = [])
    (flight : outgoing.futures = before ++ [items]) (busy : Busy outgoing.status)
    (carried : ∀ row, .queued row ∈ items → outgoing.active.get row.1 = some row.2) : Sound phase outgoing := by
  rw [idle, List.nil_append] at flight
  refine ⟨by rw [flight]; exact Nat.le_refl 1, fun _ free => absurd busy free, ?_⟩
  grind

section

variable (sound : Sound phase outgoing)
include sound

theorem held_eq (held : outgoing.futures[index]? = some items) : outgoing.futures = [items] := by
  have one := sound.one
  cases futures : outgoing.futures with
  | nil =>
    rw [futures] at held
    cases held
  | cons first rest =>
    rw [futures, List.length_cons] at one
    grind

theorem futures_complete (held : outgoing.futures[index]? = some items) : (outgoing.complete index).futures = [] := by
  have flight := sound.held_eq held
  grind [Outgoing.complete]

theorem idle_of_free (working : phase ≠ .finishing) (free : outgoing.status = none) : outgoing.futures = [] :=
  sound.idle working (by rw [free]; exact id)

theorem idle_of_failed (working : phase ≠ .finishing) {tries time : ℕ}
    (failed : outgoing.status = some (.failed tries time)) : outgoing.futures = [] :=
  sound.idle working (by rw [failed]; exact id)

end

end Sound

theorem get_markAsActive_single (item : Item Edu) (outgoing : Outgoing Edu) {row : Row Edu}
    (queued : item = .queued row) :
    (outgoing.markAsActive [item]).active.get row.1 = some row.2 := by
  subst queued
  show (outgoing.active.insert row.1 row.2).get row.1 = some row.2
  rw [BTreeMap.get_insert_eq, if_pos rfl]

theorem queued_mem_begun {item : Item Edu} {buffers : List Edu} {row : Row Edu}
    (mem : Item.queued row ∈ item :: buffers.map Item.selected) : item = .queued row := by
  grind

theorem sound_moved {phase : Phase} {next : Outgoing Edu} (moved : Moved cfg worker dest label phase next)
    (sound : Sound worker.phase (worker.outgoing dest)) : Sound phase next := by
  cases moved with
  | same phases => exact ⟨sound.one, fun working => sound.idle (phases working), sound.carried⟩
  | queue => exact ⟨sound.one, sound.idle, sound.carried⟩
  | receive working first own requested =>
    cases requested with
    | begun free buffers educount =>
      have idle := sound.idle_of_free working free
      refine .of_flight idle rfl True.intro ?_
      intro row mem
      exact get_markAsActive_single _ _ (queued_mem_begun mem)
    | retried failed rows =>
      have idle := sound.idle_of_failed working failed
      refine .of_flight idle rfl True.intro ?_
      intro row mem
      exact Outgoing.mem_activeRequests.mp mem
    | dropped failed rows retry => exact .of_idle (sound.idle_of_failed working failed)
    | same => exact sound
  | ok working held answered =>
    have idle := sound.futures_complete held
    cases answered with
    | emptied => exact .of_idle idle
    | dequeued rows nonempty listed active gone left status futures =>
      refine .of_flight idle futures (by rw [status]; exact True.intro) ?_
      grind
  | err working held told | finishOk finishing held | finishErr finishing held =>
    exact .of_idle (sound.futures_complete held)
  | stopped => exact .of_idle rfl
  | burst =>
    refine .of_flight rfl rfl True.intro ?_
    intro row mem
    exact Outgoing.mem_activeRequests.mp mem

/-- Whatever is queued, answered, refused or restarted, each row of a transaction in flight is on record as active,
    where a restart finds it. -/
theorem flight_on_record {labels : List (Label Edu)}
    (run : Run (fun worker label after => worker.next cfg label = some after) .empty labels worker) (dest : Destination)
    {items : Transaction Edu} (flying : items ∈ (worker.outgoing dest).futures) {row : Row Edu}
    (mem : .queued row ∈ items) : (worker.outgoing dest).active.get row.1 = some row.2 := by
  have sound : Sound worker.phase (worker.outgoing dest) := by
    refine run.invariant (fun worker => Sound worker.phase (worker.outgoing dest)) ?_ (.of_idle rfl)
    exact fun _ _ _ sound stepped => sound_moved (next_moved stepped dest) sound
  exact sound.carried items flying row mem

namespace Sample

theorem flight_on_record_hello : ∃ worker : Worker String,
    Run (fun worker label after => worker.next network label = some after) .empty [.queue far hello,
    .receive 0 ([], 0)] worker ∧
    (worker.outgoing far).active.get hello.1 = some hello.2 :=
  Run.exists_of_foldlM (fun worker => (worker.outgoing far).futures = [[.queued hello]]) (by decide +kernel)
    (fun _ _ _ step => step) fun _ run flight => flight_on_record run far (by rw [flight]; exact .head _) (.head _)

end Sample

end Phantom.Sending
