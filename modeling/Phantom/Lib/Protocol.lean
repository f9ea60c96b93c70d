import Mathlib.Logic.Relation
import Phantom.Lib.Task

namespace Phantom.Lib

/-- What the jobs of a pool agree on: an invariant of the world, what a step of a job may do to it, and
    which events are to be reckoned with. A step may always leave the world as it is. -/
structure Protocol (ε σ : Type) where
  Inv : World ε σ → Prop
  May : ℕ → World ε σ → World ε σ → Prop
  quiet : ∀ job world, May job world world
  Allowed : World ε σ → ℕ × ε → Prop := fun _ _ => True

namespace Protocol

variable {ω ε σ α β ρ : Type} (protocol : Protocol ε σ) (job : ℕ)

def Other (world after : World ε σ) : Prop := ∃ other events store, other ≠ job ∧ protocol.Inv world ∧
  protocol.May other world after ∧ after = world.after other events store

def Others : World ε σ → World ε σ → Prop := Relation.ReflTransGen (protocol.Other job)

/-- No step of another job makes it false. -/
def Stable (Holds : World ε σ → Prop) : Prop :=
  ∀ other events store world, other ≠ job → protocol.Inv world → protocol.May other world
  (world.after other events store) →
    Holds world → Holds (world.after other events store)

/-- Whatever the other jobs do in between, each step of the task is one that the protocol lets this job
    take, and what the task returns is as said. Only steps whose events are allowed count. -/
def wp (Returned : α → World ε σ → Prop) : Task ω ε σ α → World ε σ → Prop
  | .done result, world => ∀ later, protocol.Others job world later → protocol.Inv later →
      Returned result later
  | .step effect next, world => ∀ later drawn events store, protocol.Others job world later →
      protocol.Inv later → effect job drawn later.store = some (events, store) →
      (∀ event ∈ events, protocol.Allowed later (job, event)) →
      protocol.May job later (later.after job events store) ∧
      protocol.Inv (later.after job events store) ∧
      wp Returned (next drawn later.store) (later.after job events store)

abbrev Leads (world after : World ε σ) (Then : World ε σ → Prop) : Prop :=
  protocol.May job world after ∧ protocol.Inv after ∧ Then after

abbrev Takes (Returned : α → World ε σ → Prop) (rest : Task ω ε σ α) (world after : World ε σ) : Prop :=
  protocol.Leads job world after (protocol.wp job Returned rest)

section Rules

variable {protocol job}
variable {task : Task ω ε σ α} {rest : α → Task ω ε σ β}
variable {Returned : α → World ε σ → Prop} {w : World ε σ}

theorem Stable.others {Holds : World ε σ → Prop} (stable : protocol.Stable job Holds) {w later : World ε σ}
    (holds : Holds w) (others : protocol.Others job w later) : Holds later := by
  induction others with
  | refl => exact holds
  | tail _ step ih =>
    obtain ⟨other, events, store, ne, inv, may, rfl⟩ := step
    exact stable other events store _ ne inv may ih

theorem stable_true : protocol.Stable job (fun _ => True) := fun _ _ _ _ _ _ _ _ => trivial

theorem stable_own {past : List ε} : protocol.Stable job (fun w => w.own job = past) :=
  fun _ events store w ne _ _ own => (World.own_after_other w ne events store).trans own

theorem stable_reported {Claim : Prop} {entry : ℕ × ε} : protocol.Stable job (fun w => Claim → entry ∈ w.trace) :=
  fun _ _ _ _ _ _ _ reported claim => List.mem_append_left _ (reported claim)

theorem Stable.and {Holds More : World ε σ → Prop} (left : protocol.Stable job Holds)
    (right : protocol.Stable job More) : protocol.Stable job (fun w => Holds w ∧ More w) :=
  fun other events store w ne inv may holds =>
    ⟨left other events store w ne inv may holds.1, right other events store w ne inv may holds.2⟩

theorem wp_later {w later : World ε σ}
    (spec : protocol.wp job Returned task w) (others : protocol.Others job w later) :
    protocol.wp job Returned task later := by
  cases task with
  | done result => exact fun last rest inv => spec last (others.trans rest) inv
  | step effect next =>
    exact fun last drawn events store rest inv taken allowed =>
      spec last drawn events store (others.trans rest) inv taken allowed

theorem wp_of_later (spec : ∀ later, protocol.Others job w later → protocol.Inv later →
      protocol.wp job Returned task later) : protocol.wp job Returned task w := by
  cases task with
  | done result => exact fun later others inv => spec later others inv later .refl inv
  | step effect next =>
    exact fun later drawn events store others inv taken allowed =>
      spec later others inv later drawn events store .refl inv taken allowed

theorem wp_seq {Middle : α → World ε σ → Prop} {Returned : β → World ε σ → Prop}
    (spec : protocol.wp job Middle task w) (more : ∀ result later, protocol.Inv later → Middle result later →
      protocol.wp job Returned (rest result) later) : protocol.wp job Returned (task >>= rest) w := by
  induction task generalizing w with
  | done result => exact wp_of_later fun later others inv => more result later inv (spec later others inv)
  | step effect next ih =>
    intro later drawn events store others inv taken allowed
    obtain ⟨may, kept, after⟩ := spec later drawn events store others inv taken allowed
    exact ⟨may, kept, ih _ _ after⟩

variable {result : α}

theorem wp_pure (returned : ∀ later, Returned result later) : protocol.wp job Returned (pure result : Task ω ε σ α) w :=
  fun later _ _ => returned later

theorem wp_return (stable : protocol.Stable job (Returned result)) (returned : Returned result w) :
    protocol.wp job Returned (pure result : Task ω ε σ α) w := fun _ others _ => stable.others returned others

theorem wp_mono {More : α → World ε σ → Prop} (spec : protocol.wp job Returned task w)
    (more : ∀ result later, Returned result later → More result later) : protocol.wp job More task w := by
  induction task generalizing w with
  | done result => exact fun later others inv => more _ _ (spec later others inv)
  | step effect next ih =>
    intro later drawn events store others inv taken allowed
    obtain ⟨may, kept, rest⟩ := spec later drawn events store others inv taken allowed
    exact ⟨may, kept, ih _ _ rest⟩

variable {Holds : World ε σ → Prop} (stable : protocol.Stable job Holds) (holds : Holds w)

include stable holds

theorem wp_returns (returned : ∀ later, Holds later → Returned result later) :
    protocol.wp job Returned (pure result : Task ω ε σ α) w :=
  fun later others _ => returned later (stable.others holds others)

theorem wp_step {effect : ℕ → ω → σ → Option (List ε × σ)} {next : ω → σ → Task ω ε σ α}
    (steps : ∀ later drawn events store, protocol.Inv later → Holds later →
      effect job drawn later.store = some (events, store) →
      protocol.Takes job Returned (next drawn later.store) later (later.after job events store)) :
    protocol.wp job Returned (.step effect next) w := fun later drawn events store others inv taken _ =>
    steps later drawn events store inv (stable.others holds others) taken

variable {view : σ → β}

theorem wp_read {rest : β → Task ω ε σ α}
    (more : ∀ later, protocol.Inv later → Holds later → protocol.wp job Returned (rest (view later.store)) later) :
    protocol.wp job Returned (Task.read view >>= rest) w := by
  apply wp_step stable holds
  intro later drawn events store kept held taken
  cases taken
  rw [World.after_nil]
  exact ⟨protocol.quiet job later, kept, more later kept held⟩

theorem wp_observe {events : σ → List ε} {rest : β → Task ω ε σ α}
    (more : ∀ later, protocol.Inv later → Holds later →
    (∀ event ∈ events later.store, protocol.Allowed later (job, event)) → protocol.Takes job Returned
    (rest (view later.store)) later (later.after job (events later.store) later.store)) :
    protocol.wp job Returned (Task.observe events view >>= rest) w := by
  intro later drawn reported store others kept taken allowed
  cases taken
  exact more later kept (stable.others holds others) allowed

variable {change : σ → σ} {events : List ε}

theorem wp_write {rest : Unit → Task ω ε σ α}
    (more : ∀ later, protocol.Inv later → Holds later → protocol.Takes job Returned (rest ()) later
    (later.after job events (change later.store))) :
    protocol.wp job Returned (Task.write events change >>= rest) w := by
  apply wp_step stable holds
  intro later drawn reported store kept held taken
  cases taken
  exact more later kept held

theorem wp_write_last {Returned : Unit → World ε σ → Prop}
    (more : ∀ later, protocol.Inv later → Holds later → protocol.Takes job Returned
    (pure () : Task ω ε σ Unit) later (later.after job events (change later.store))) :
    protocol.wp job Returned (Task.write events change : Task ω ε σ Unit) w := by
  exact wp_write stable holds more

theorem wp_draw {accept : ω → σ → Option (List ε × σ)} {rest : ω → Task ω ε σ α}
    (more : ∀ later drawn events store, protocol.Inv later → Holds later →
      accept drawn later.store = some (events, store) →
      protocol.Takes job Returned (rest drawn) later (later.after job events store)) :
    protocol.wp job Returned (Task.draw accept >>= rest) w := wp_step stable holds more

/-- Something is drawn from outside that the store does not depend on. -/
theorem wp_look {rest : ω → Task ω ε σ α} (more : ∀ drawn later, protocol.Inv later → Holds later →
      protocol.wp job Returned (rest drawn) later) :
    protocol.wp job Returned (Task.draw (fun _ store => some ([], store)) >>= rest) w := by
  apply wp_draw stable holds
  intro later drawn events store kept held taken
  cases taken
  rw [World.after_nil]
  exact ⟨protocol.quiet job later, kept, more drawn later kept held⟩

/-- A call between a step that takes a lock and one that gives it back. -/
theorem wp_section {effect : ℕ → ω → σ → Option (List ε × σ)} {call : Task ω ε σ α} {release : σ → σ}
    {Held : World ε σ → Prop} {Leaving : α → World ε σ → Prop}
    (enter : ∀ later drawn events store, protocol.Inv later → Holds later →
      effect job drawn later.store = some (events, store) →
      protocol.Leads job later (later.after job events store) Held)
    (spec : ∀ later, protocol.Inv later → Held later → protocol.wp job Leaving call later)
    (leaving : ∀ result, protocol.Stable job (Leaving result))
    (leave : ∀ result later, protocol.Inv later → Leaving result later →
      protocol.Leads job later (later.after job [] (release later.store)) (Returned result))
    (returned : ∀ result, protocol.Stable job (Returned result)) : protocol.wp job Returned (do
      .step effect fun _ _ => .done ()
      let result ← call
      Task.write [] release
      return result) w := by
  apply wp_step stable holds
  intro later drawn events store inv held taken
  obtain ⟨may, kept, entered⟩ := enter later drawn events store inv held taken
  refine ⟨may, kept, ?_⟩
  apply wp_seq (spec _ kept entered)
  intro result middle _ left
  apply wp_write (leaving result) left
  intro last inv left
  obtain ⟨may, kept, done⟩ := leave result last inv left
  exact ⟨may, kept, wp_return (returned result) done⟩

/-- A lock of the store, and how to set who holds it. Nobody but the holder gives it back. -/
structure Mutex (protocol : Protocol ε σ) (holder : σ → Option ℕ) (set : Option ℕ → σ → σ) : Prop where
  self : ∀ who store, holder (set who store) = who
  stable : ∀ job, protocol.Stable job fun w => holder w.store = some job
  take : ∀ job w, holder w.store = none → protocol.May job w ⟨set (some job) w.store, w.trace⟩
  give : ∀ job w, holder w.store = some job → protocol.May job w ⟨set none w.store, w.trace⟩
  inv : ∀ who w, protocol.Inv w → protocol.Inv ⟨set who w.store, w.trace⟩

theorem wp_locked {holder : σ → Option ℕ} {set : Option ℕ → σ → σ} (mutex : protocol.Mutex holder set)
    {call : Task ω ε σ α}
    (blind : ∀ later who, Holds later → Holds ⟨set who later.store, later.trace⟩)
    (spec : ∀ later, protocol.Inv later → Holds later ∧ holder later.store = some job →
      protocol.wp job (fun result last => holder last.store = some job ∧ Returned result last) call later)
    (returned : ∀ result, protocol.Stable job (Returned result))
    (blindly : ∀ result later, Returned result later → Returned result ⟨set none later.store, later.trace⟩) :
    protocol.wp job Returned (do
      .step (fun job _ store => if holder store = none then some ([], set (some job) store) else none)
        (fun _ _ => .done ())
      let result ← call
      Task.write [] (set none)
      return result) w := by
  refine wp_section stable holds ?_ spec (fun result => (mutex.stable job).and (returned result)) ?_ returned
  · intro later drawn events store inv held taken
    split at taken
    · next free =>
      cases taken
      rw [World.after_silent]
      exact ⟨mutex.take job later free, mutex.inv _ later inv, blind later _ held, mutex.self ..⟩
    · cases taken
  · rintro result later inv ⟨mine, left⟩
    rw [World.after_silent]
    exact ⟨mutex.give job later mine, mutex.inv _ later inv, blindly result later left⟩

end Rules

section Pools

variable {protocol}
variable {program : ρ → Task ω ε σ α} {Returned : ℕ → ρ → α → World ε σ → Prop}
variable {pool after : Pool ρ ω ε σ α} {turns : List (Turn ρ ω)}
variable {turn : Turn ρ ω}

/-- Every job of the pool does what the protocol asks of it, and only jobs that have arrived have
    reported anything. -/
structure Sound (protocol : Protocol ε σ)
    (Returned : ℕ → ρ → α → World ε σ → Prop) (pool : Pool ρ ω ε σ α) : Prop where
  inv : protocol.Inv pool.world
  reported : ∀ entry ∈ pool.world.trace, entry.1 < pool.jobs.length
  jobs : ∀ job request task, pool.jobs[job]? = some (request, task) →
    protocol.wp job (Returned job request) task pool.world

theorem Sound.idle {store : σ} (inv : protocol.Inv ⟨store, []⟩) :
    Sound protocol Returned (Pool.idle store : Pool ρ ω ε σ α) where
  inv := inv
  reported := nofun
  jobs := nofun

theorem Sound.step_from (sound : Sound protocol Returned pool)
    (start : ∀ req, (∀ entry ∈ pool.world.trace, entry.1 ≠ pool.jobs.length) →
      protocol.wp pool.jobs.length (Returned pool.jobs.length req) (program req) pool.world)
    (step : Pool.Step program protocol.Allowed pool turn after) : Sound protocol Returned after := by
  rcases Pool.step_cases step with ⟨req, rfl, rfl⟩ |
    ⟨job, drawn, req, effect, next, events, store, rfl, found, taken, allowed, rfl⟩
  · refine ⟨sound.inv, ?_, ?_⟩
    · intro entry mem
      have arrived := sound.reported entry mem
      grind
    · intro job request' task found
      rcases Nat.lt_trichotomy job pool.jobs.length with earlier | rfl | later
      · grind [Sound.jobs]
      · simp only [List.getElem?_concat_length, Option.some.injEq, Prod.mk.injEq] at found
        obtain ⟨rfl, rfl⟩ := found
        apply start
        intro entry mem same
        have arrived := sound.reported entry mem
        omega
      · grind
  · have inside : job < pool.jobs.length := (List.getElem?_eq_some_iff.mp found).1
    obtain ⟨may, kept, rest⟩ := sound.jobs job req _ found _ drawn events store .refl sound.inv taken allowed
    refine ⟨kept, ?_, ?_⟩
    · intro entry mem
      simp only [World.after_trace, List.mem_append, List.mem_map] at mem
      rw [List.length_set]
      rcases mem with old | ⟨event, _, rfl⟩
      · exact sound.reported entry old
      · exact inside
    · intro other request' task found'
      rcases eq_or_ne job other with rfl | ne
      · grind
      · rw [List.getElem?_set_ne ne] at found'
        have spec := sound.jobs other request' task found'
        exact wp_later spec (.single ⟨job, events, store, ne, sound.inv, may, rfl⟩)

theorem Sound.run (start : ∀ job req w, protocol.Inv w → (∀ entry ∈ w.trace, entry.1 ≠ job) →
      protocol.wp job (Returned job req) (program req) w)
    (run : Run (Pool.Step program protocol.Allowed) pool turns after)
    (sound : Sound protocol Returned pool) : Sound protocol Returned after := run.invariant _ (fun _ _ _ kept step =>
    kept.step_from (fun req unreported => start _ req _ kept.inv unreported) step) sound

/-- What every step the protocol lets a job take leaves true holds along every run of such jobs. -/
theorem Sound.invariant {Allowed : World ε σ → ℕ × ε → Prop}
    (within : ∀ w entry, Allowed w entry → protocol.Allowed w entry)
    (start : ∀ job req w, protocol.Inv w → (∀ entry ∈ w.trace, entry.1 ≠ job) →
      protocol.wp job (Returned job req) (program req) w) (Holds : World ε σ → Prop)
    (keep : ∀ job w after entries, protocol.Inv w → Holds w → protocol.May job w after →
      after.trace = w.trace ++ entries → (∀ entry ∈ entries, Allowed w entry) → Holds after)
    (run : Run (Pool.Step program Allowed) pool turns after)
    (sound : Sound protocol Returned pool) (holds : Holds pool.world) :
    Sound protocol Returned after ∧ Holds after.world := by
  refine run.invariant (fun pool => Sound protocol Returned pool ∧ Holds pool.world) ?_ ⟨sound, holds⟩
  rintro pool turn after ⟨sound, holds⟩ step
  refine ⟨sound.step_from (fun req unreported => start _ req _ sound.inv unreported) (step.mono within), ?_⟩
  rcases Pool.step_cases step with ⟨req, rfl, rfl⟩ |
    ⟨job, drawn, req, effect, next, events, store, rfl, found, taken, allowed, rfl⟩
  · exact holds
  · have may := (sound.jobs job req _ found _ drawn events store .refl sound.inv taken
      (fun event mem => within _ _ (allowed event mem))).1
    exact keep job pool.world _ _ sound.inv holds may rfl (by simpa using allowed)

theorem Sound.returned (sound : Sound protocol Returned pool)
    {job : ℕ} {req : ρ} {result : α} (ended : pool.returned job = some (req, result)) :
    Returned job req result pool.world := by
  simp only [Pool.returned] at ended
  split at ended
  · rename_i found
    cases ended
    exact sound.jobs _ _ _ found _ .refl sound.inv
  · cases ended

end Pools

end Protocol

end Phantom.Lib
