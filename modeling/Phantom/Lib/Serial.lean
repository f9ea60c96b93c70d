import Phantom.Lib.Task

namespace Phantom.Lib.Task

variable {ω ε σ α β : Type} (job : ℕ)
variable {rest : β → Task ω ε σ α}
variable {task : Task ω ε σ α}

/-- The task takes all its steps with nobody in between. -/
inductive Ends : Task ω ε σ α → World ε σ → α → World ε σ → Prop where
  | done {result : α} {world : World ε σ} : Ends (.done result) world result world
  | step {effect : ℕ → ω → σ → Option (List ε × σ)} {next : ω → σ → Task ω ε σ α}
      {world last : World ε σ} {drawn : ω} {events : List ε} {store : σ} {result : α}
      (taken : effect job drawn world.store = some (events, store))
      (rest : Ends (next drawn world.store) (world.after job events store) result last) :
      Ends (.step effect next) world result last

variable {last : World ε σ} {result : α} {events : List ε}

/-- What holds of the result and of the world when the task is over, whatever it draws. -/
def serial (Returned : α → World ε σ → Prop) : Task ω ε σ α → World ε σ → Prop
  | .done result, world => Returned result world
  | .step effect next, world => ∀ drawn events store, effect job drawn world.store = some (events, store) →
      serial Returned (next drawn world.store) (world.after job events store)

variable {job} {Returned : α → World ε σ → Prop} {world w : World ε σ}

theorem serial.ends (spec : task.serial job Returned w) (ends : Ends job task w result last) :
    Returned result last := by
  induction ends with
  | done => exact spec
  | step taken _ ih => exact ih (spec _ _ _ taken)

theorem serial_mono {More : α → World ε σ → Prop} (spec : task.serial job Returned w)
    (more : ∀ result last, Returned result last → More result last) : task.serial job More w := by
  induction task generalizing w with
  | done result => exact more _ _ spec
  | step effect next ih => exact fun drawn events store taken => ih _ _ (spec drawn events store taken)

theorem serial_bind {task : Task ω ε σ β}
    (spec : task.serial job (fun value middle => (rest value).serial job Returned middle) w) :
    (task >>= rest).serial job Returned w := by
  induction task generalizing w with
  | done result => exact spec
  | step effect next ih => exact fun drawn events store taken => ih _ _ (spec drawn events store taken)

theorem serial_seq {Middle : β → World ε σ → Prop} {task : Task ω ε σ β} (spec : task.serial job Middle w)
    (more : ∀ value middle, Middle value middle → (rest value).serial job Returned middle) :
    (task >>= rest).serial job Returned w := serial_bind (serial_mono spec more)

variable {view : σ → β}

theorem serial_read (more : (rest (view w.store)).serial job Returned w) :
    (Task.read view >>= rest).serial job Returned w := by
  intro drawn events store taken
  cases taken
  rw [World.after_nil]
  exact more

theorem serial_observe {events : σ → List ε}
    (more : (rest (view w.store)).serial job Returned (w.after job (events w.store) w.store)) :
    (Task.observe events view >>= rest).serial job Returned w := by
  intro drawn reported store taken
  cases taken
  exact more

variable {change : σ → σ}

theorem serial_write {rest : Unit → Task ω ε σ α}
    (more : (rest ()).serial job Returned (w.after job events (change w.store))) :
    (Task.write events change >>= rest).serial job Returned w := by
  intro drawn reported store taken
  cases taken
  exact more

theorem serial_write_last {Returned : Unit → World ε σ → Prop}
    (returned : Returned () (w.after job events (change w.store))) :
    (Task.write events change : Task ω ε σ Unit).serial job Returned w := by
  intro drawn reported store taken
  cases taken
  exact returned

def perform (job : ℕ) (drawn : ω) : Task ω ε σ α → World ε σ → Option (α × World ε σ)
  | .done result, world => some (result, world)
  | .step effect next, world =>
    match effect job drawn world.store with
    | some (events, store) => perform job drawn (next drawn world.store) (world.after job events store)
    | none => none

variable {drawn : ω}

theorem ends_of_perform (performed : perform job drawn task w = some (result, last)) : Ends job task w result last := by
  induction task generalizing w with
  | done result =>
    cases performed
    exact .done
  | step effect next ih =>
    simp only [perform] at performed
    split at performed
    · rename_i taken
      exact .step taken (ih _ _ performed)
    · cases performed

theorem ends_of_isSome (performed : (perform job drawn task w).isSome) :
    Ends job task w ((perform job drawn task w).get performed).1 ((perform job drawn task w).get performed).2 :=
  ends_of_perform (Option.some_get performed).symm

variable {ρ : Type}

def performAll (program : ρ → Task ω ε σ α) (world : World ε σ) :
    List (ρ × ω) → Option (List (ρ × α) × World ε σ)
  | [] => some ([], world)
  | (request, drawn) :: requests =>
    match perform 0 drawn (program request) world with
    | some (result, after) =>
      (performAll program after requests).map fun (served, last) => ((request, result) :: served, last)
    | none => none

variable {program : ρ → Task ω ε σ α}

theorem run_of_performAll {requests : List (ρ × ω)} {served : List (ρ × α)}
    (performed : performAll program w requests = some (served, last)) :
    Run (fun w served after => Ends 0 (program served.1) w served.2 after) w served last := by
  induction requests generalizing w served with
  | nil =>
    cases performed
    exact .nil _
  | cons req requests ih =>
    simp only [performAll] at performed
    split at performed
    · rename_i result after first
      simp only [Option.map_eq_some_iff, Prod.mk.injEq, Prod.exists] at performed
      obtain ⟨rest, _, performedRest, rfl, rfl⟩ := performed
      exact .cons (ends_of_perform first) (ih performedRest)
    · cases performed

end Phantom.Lib.Task
