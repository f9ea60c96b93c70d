import Phantom.Sending.Flights

namespace Phantom.Sending

open Phantom.Lib

variable {Edu : Type} {config cfg : Config} {worker : Worker Edu} {label : Label Edu} {dest : Destination}

def Item.isSelected : Item Edu → Bool
  | .selected _ => true
  | _ => false

/-- No EDU of `select_edus` is in a transaction that fails. -/
def spares (worker : Worker Edu) : Label Edu → Bool
  | .respond dest index false _ => (worker.outgoing dest).futures[index]?.all fun items => !items.any Item.isSelected
  | _ => true

def isRestart : Label Edu → Bool
  | .restart _ _ => true
  | _ => false

def Carries (items : Transaction Edu) (buf : Edu) : Prop := .edu buf ∈ items.map Item.event

/-- An EDU is acknowledged or in flight, or it has an active row while the destination waits to be tried again. -/
inductive Held (outgoing : Outgoing Edu) (buf : Edu) : Prop where
  | acknowledged (items : Transaction Edu) (member : items ∈ outgoing.acknowledged) (carries : Carries items buf)
  | flying (items : Transaction Edu) (member : items ∈ outgoing.futures) (carries : Carries items buf)
  | waiting {tries time : ℕ} (row : Row Edu) (failed : outgoing.status = some (.failed tries time))
      (active : outgoing.active.get row.1 = some row.2) (parsed : parseServercurrentevent row = .edu buf)

def AllHeld (outgoing : Outgoing Edu) : Prop := ∀ items ∈ outgoing.sent, ∀ buf, Carries items buf → Held outgoing buf

section AllHeld

variable {outgoing next : Outgoing Edu} {items : Transaction Edu} {buf : Edu} {phase : Phase}

theorem exists_acknowledged (held : Held outgoing buf) (idle : outgoing.futures = [])
    (waits : ∀ tries time, outgoing.status = some (.failed tries time) → outgoing.activeRequests = []) :
    ∃ items ∈ outgoing.acknowledged, Carries items buf := by
  cases held with
  | acknowledged items mem carries => exact ⟨items, mem, carries⟩
  | flying items mem =>
    grind
  | waiting row failed active =>
    have mem := Outgoing.mem_activeRequests.mpr active
    grind

theorem allHeld_sent (all : AllHeld outgoing) (sent : next.sent = outgoing.sent ++ [items])
    (futures : items ∈ next.futures)
    (old : ∀ buf, Held outgoing buf → (∃ items ∈ next.acknowledged, Carries items buf) ∨ Carries items buf) :
    AllHeld next := by
  intro other mem buf carries
  rw [sent] at mem
  rcases List.mem_append.mp mem with before | new
  · rcases old buf (all other before buf carries) with ⟨items, mem, carries⟩ | carries
    · exact .acknowledged items mem carries
    · exact .flying items futures carries
  · rw [List.mem_singleton.mp new] at carries
    exact .flying items futures carries

theorem carries_activeRequests {row : Row Edu} (active : outgoing.active.get row.1 = some row.2)
    (parsed : parseServercurrentevent row = .edu buf) : Carries outgoing.activeRequests buf :=
  List.mem_map.mpr ⟨_, Outgoing.mem_activeRequests.mpr active, parsed⟩

theorem row_of_carries (carries : Carries items buf) (plain : items.any Item.isSelected = false) :
    ∃ row, .queued row ∈ items ∧ parseServercurrentevent row = .edu buf := by
  obtain ⟨item, mem, event⟩ := List.mem_map.mp carries
  cases item with
  | queued row => exact ⟨row, mem, event⟩
  | selected chosen =>
    have found := List.any_eq_false.mp plain _ mem
    exact absurd rfl found
  | flush => cases event

theorem allHeld_moved (moved : Moved cfg worker dest label phase next) (spared : spares worker label = true)
    (once : isRestart label = false) (sound : Sound worker.phase (worker.outgoing dest))
    (all : worker.phase ≠ .finishing → AllHeld (worker.outgoing dest)) (working : phase ≠ .finishing) : AllHeld next := by
  cases moved with
  | same phases => exact all (phases working)
  | queue =>
    intro items mem buf carries
    cases all working items mem buf carries with
    | acknowledged items mem carries => exact .acknowledged items mem carries
    | flying items mem carries => exact .flying items mem carries
    | waiting row failed active parsed => exact .waiting row failed active parsed
  | receive _ first own requested =>
    cases requested with
    | begun free buffers educount =>
      refine allHeld_sent (all working) rfl (List.mem_append_right _ List.mem_cons_self) ?_
      intro buf held
      have acknowledged : ∃ items ∈ (worker.outgoing dest).acknowledged, Carries items buf := by
        refine exists_acknowledged held (sound.idle_of_free working free) ?_
        grind
      exact Or.inl acknowledged
    | retried failed rows =>
      refine allHeld_sent (all working) rfl (List.mem_append_right _ List.mem_cons_self) ?_
      intro buf held
      cases held with
      | acknowledged items mem carries => exact Or.inl ⟨items, mem, carries⟩
      | flying items mem =>
        grind [Sound.idle_of_failed]
      | waiting row _ active parsed => exact Or.inr (carries_activeRequests active parsed)
    | dropped failed rows =>
      intro items mem buf carries
      obtain ⟨items, mem, carries⟩ := exists_acknowledged (all working items mem buf carries)
        (sound.idle_of_failed working failed) fun _ _ _ => rows
      exact .acknowledged items mem carries
    | same => exact all working
  | ok before held answered =>
    rename_i index now flight
    have old : ∀ buf, Held (worker.outgoing dest) buf →
        ∃ items ∈ (worker.outgoing dest).acknowledged ++ [flight], Carries items buf := by
      intro buf known
      cases known with
      | acknowledged items mem carries => exact ⟨items, List.mem_append_left _ mem, carries⟩
      | flying items mem carries =>
        grind [Sound.held_eq]
      | waiting row failed =>
        rw [sound.idle_of_failed working failed] at held
        cases held
    cases answered with
    | emptied =>
      intro items mem buf carries
      obtain ⟨items, mem, carries⟩ := old buf (all working items mem buf carries)
      exact .acknowledged items mem carries
    | dequeued rows nonempty listed active gone left status futures sent requested acknowledged =>
      refine allHeld_sent (all working) sent (by grind) ?_
      intro buf known
      rw [acknowledged]
      exact Or.inl (old buf known)
  | err before held told =>
    rename_i index now flight status
    have plain : flight.any Item.isSelected = false := by
      simpa [spares, held] using spared
    rcases told with ⟨_, free⟩ | ⟨tries, time, rfl⟩
    · rw [sound.idle_of_free working free] at held
      cases held
    · intro items mem buf carries
      cases all working items mem buf carries with
      | acknowledged items mem carries => exact .acknowledged items mem carries
      | flying items mem carries =>
        have same := sound.held_eq held
        rw [same, List.mem_singleton] at mem
        subst mem
        obtain ⟨row, inside, parsed⟩ := row_of_carries carries plain
        exact .waiting row rfl (sound.carried items (by rw [same]; exact List.mem_cons_self) row inside) parsed
      | waiting row failed =>
        rw [sound.idle_of_failed working failed] at held
        cases held
  | finishOk finishing | finishErr finishing => exact absurd finishing working
  | stopped | burst => cases once

theorem allHeld_started {netburst : Bool} {keep : ℤ} (moved : Moved cfg worker dest (.restart netburst keep) phase next)
    (fresh : (worker.outgoing dest).sent = []) : AllHeld next := by
  intro items mem buf carries
  cases moved with
  | same | stopped => exact absurd (fresh ▸ mem) List.not_mem_nil
  | burst =>
    refine .flying items ?_ carries
    have only : items ∈ (worker.outgoing dest).sent ++ [_] := mem
    rw [fresh] at only
    exact only

end AllHeld

/-- From the start of the worker on, if no transaction fails that has EDUs of `select_edus`, then every EDU that was
    sent is acknowledged when the destination has no status any more. -/
theorem edus_retried {start first : Worker Edu} {labels : List (Label Edu)} {netburst : Bool} {keep : ℤ}
    (fresh : ∀ dest, (start.outgoing dest).futures = [] ∧ (start.outgoing dest).sent = [])
    (started : start.next config (.restart netburst keep) = some first)
    (run : Run (fun worker label after => (spares worker label && !isRestart label) = true ∧
      worker.next config label = some after) first labels worker)
    (working : worker.phase ≠ .finishing) (dest : Destination) (done : (worker.outgoing dest).status = none)
    (items : Transaction Edu) (sent : items ∈ (worker.outgoing dest).sent) (buf : Edu)
    (carries : .edu buf ∈ items.map Item.event) :
    ∃ acknowledged ∈ (worker.outgoing dest).acknowledged, .edu buf ∈ acknowledged.map Item.event := by
  have base : Sound first.phase (first.outgoing dest) ∧ (first.phase ≠ .finishing → AllHeld (first.outgoing dest)) := by
    have idle : Sound start.phase (start.outgoing dest) := .of_idle (fresh dest).1
    have moved := next_moved started dest
    exact ⟨sound_moved moved idle, fun _ => allHeld_started moved (fresh dest).2⟩
  have invariant : Sound worker.phase (worker.outgoing dest) ∧
    (worker.phase ≠ .finishing → AllHeld (worker.outgoing dest)) := by
    refine run.invariant (fun worker => Sound worker.phase (worker.outgoing dest) ∧
      (worker.phase ≠ .finishing → AllHeld (worker.outgoing dest))) ?_ base
    rintro worker label after ⟨sound, all⟩ ⟨allowed, stepped⟩
    have moved := next_moved stepped dest
    grind [sound_moved, allHeld_moved]
  refine exists_acknowledged (invariant.2 working items sent buf carries) (invariant.1.idle_of_free working done) ?_
  grind

namespace Sample

def started : Worker String :=
  ⟨fun dest => if network.mine dest then Outgoing.empty.startupNetburst true (-1) else Outgoing.empty.stopped, [],
  .working⟩

def failsOnce (row : Row String) (buffers : List String) : List (Label String) :=
  [.queue far row, .receive 0 (buffers, 5), .respond far 0 false 1, .flush far true, .receive 2 ([], 5),
  .respond far 0 true 3]

/-- The retried transaction has the row of the first, and not its EDU. -/
theorem edu_not_retried : ∃ worker : Worker String, Worker.next network .empty (.restart true (-1)) = some started ∧
    Run (fun worker label after => (!isRestart label) = true ∧ worker.next network label = some after) started
      (failsOnce hello ["typing"]) worker ∧ worker.phase ≠ .finishing ∧ (worker.outgoing far).status = none ∧
    (∃ items ∈ (worker.outgoing far).sent, .edu "typing" ∈ items.map Item.event) ∧
    ∀ items ∈ (worker.outgoing far).acknowledged, .edu "typing" ∉ items.map Item.event := by
  rw [exists_and_left]
  exact ⟨rfl, Run.exists_of_allowing _ (by decide +kernel) fun _ _ lost => lost⟩

def typing : Row String := ([0, 1], some "typing")

theorem edus_retried_queued : ∃ worker : Worker String,
    Run (fun worker label after => (spares worker label && !isRestart label) = true ∧
    worker.next network label = some after)
      started (failsOnce typing []) worker ∧
    (∃ items ∈ (worker.outgoing far).sent, .edu "typing" ∈ items.map Item.event) ∧
    ∃ acknowledged ∈ (worker.outgoing far).acknowledged, .edu "typing" ∈ acknowledged.map Item.event := by
  apply Run.exists_of_allowing (fun worker => worker.phase ≠ .finishing ∧ (worker.outgoing far).status = none ∧
    ∃ items ∈ (worker.outgoing far).sent, .edu "typing" ∈ items.map Item.event) (by decide +kernel)
  rintro worker run ⟨working, done, items, sent, carries⟩
  have started : Worker.next network .empty (.restart true (-1)) = some started := rfl
  exact ⟨⟨items, sent, carries⟩,
    edus_retried (fun _ => ⟨rfl, rfl⟩) started run working far done items sent "typing" carries⟩

end Sample

end Phantom.Sending
