import Phantom.Lib.Runs

namespace Phantom.Lib

/-- A request as the atomic steps it takes on a shared store. A step is given the number of its job and
    what it draws from outside; where it has to wait, its effect is `none`. Besides the new store it
    reports the events that are worth remembering, and it goes on with what it read. -/
inductive Task (ω ε σ α : Type) where
  | done (result : α)
  | step (effect : ℕ → ω → σ → Option (List ε × σ)) (next : ω → σ → Task ω ε σ α)

namespace Task

variable {ω ε σ α β : Type}

def bind (task : Task ω ε σ α) (rest : α → Task ω ε σ β) : Task ω ε σ β :=
  match task with
  | .done result => rest result
  | .step effect next => .step effect fun drawn store => (next drawn store).bind rest

instance : Monad (Task ω ε σ) where
  pure := .done
  bind := bind

variable (result : α)

@[simp] theorem done_bind (rest : α → Task ω ε σ β) : (.done result : Task ω ε σ α) >>= rest = rest result := rfl

@[simp] theorem step_bind (effect : ℕ → ω → σ → Option (List ε × σ)) (next : ω → σ → Task ω ε σ α)
    (rest : α → Task ω ε σ β) :
    .step effect next >>= rest = .step effect (fun drawn store => next drawn store >>= rest) := rfl

def read (view : σ → α) : Task ω ε σ α :=
  .step (fun _ _ store => some ([], store)) fun _ store => .done (view store)

def observe (events : σ → List ε) (view : σ → α) : Task ω ε σ α :=
  .step (fun _ _ store => some (events store, store)) fun _ store => .done (view store)

def write (events : List ε) (change : σ → σ) : Task ω ε σ Unit :=
  .step (fun _ _ store => some (events, change store)) fun _ _ => .done ()

/-- Draws from outside, when the store accepts what is drawn. -/
def draw (accept : ω → σ → Option (List ε × σ)) : Task ω ε σ ω :=
  .step (fun _ => accept) fun drawn _ => .done drawn

end Task

/-- The store, and who reported what so far. -/
structure World (ε σ : Type) where
  store : σ
  trace : List (ℕ × ε)

namespace World

variable {ε σ : Type}

def after (world : World ε σ) (job : ℕ) (events : List ε) (store : σ) : World ε σ where
  store := store
  trace := world.trace ++ events.map (job, ·)

variable (w : World ε σ) (job : ℕ) (events : List ε) (store : σ)

@[simp] theorem after_store : (w.after job events store).store = store := rfl

@[simp] theorem after_trace :
    (w.after job events store).trace = w.trace ++ events.map (job, ·) := rfl

@[simp] theorem after_nil : w.after job [] w.store = w := by
  simp [after]

theorem after_silent : w.after job [] store = ⟨store, w.trace⟩ := by
  simp [after]

def own (world : World ε σ) (job : ℕ) : List ε :=
  world.trace.filterMap fun entry => if entry.1 = job then some entry.2 else none

variable {event : ε}

theorem mem_own {w : World ε σ} {job : ℕ} : event ∈ w.own job ↔ (job, event) ∈ w.trace := by
  grind [own]

@[simp] theorem own_after :
    (w.after job events store).own job = w.own job ++ events := by
  simp [own, after, List.filterMap_map]

variable {other : ℕ}

theorem mem_own_after {w : World ε σ} {job : ℕ} {events : List ε} {store : σ} :
    event ∈ (w.after job events store).own other ↔ event ∈ w.own other ∨ (other = job ∧ event ∈ events) := by
  grind [mem_own, after_trace]

theorem own_of_trace {w after : World ε σ} {job : ℕ} (grown : after.trace = w.trace ++ [(job, event)]) :
    after.own job = w.own job ++ [event] := by
  simp [own, grown]

theorem own_after_other {job : ℕ} (ne : other ≠ job) (events : List ε) (store : σ) :
    (w.after other events store).own job = w.own job := by
  simp [own, after, List.filterMap_map, ne]

end World

structure Pool (ρ ω ε σ α : Type) where
  world : World ε σ
  jobs : List (ρ × Task ω ε σ α)

inductive Turn (ρ ω : Type) where
  | arrive (request : ρ)
  | take (job : ℕ) (drawn : ω)

namespace Pool

variable {ρ ω ε σ α : Type}
variable {program : ρ → Task ω ε σ α} {Allowed : World ε σ → ℕ × ε → Prop}

def idle (store : σ) : Pool ρ ω ε σ α := ⟨⟨store, []⟩, []⟩

def next (program : ρ → Task ω ε σ α) (pool : Pool ρ ω ε σ α) :
    Turn ρ ω → Option (List (ℕ × ε) × Pool ρ ω ε σ α)
  | .arrive request => some ([], { pool with jobs := pool.jobs ++ [(request, program request)] })
  | .take job drawn =>
    match pool.jobs[job]? with
    | some (request, .step effect next) =>
      match effect job drawn pool.world.store with
      | some (events, store) =>
        some (events.map (job, ·),
          ⟨pool.world.after job events store, pool.jobs.set job (request, next drawn pool.world.store)⟩)
      | none => none
    | _ => none

/-- A turn in which every reported event is allowed where it happens. -/
def Step (program : ρ → Task ω ε σ α) (Allowed : World ε σ → ℕ × ε → Prop)
    (pool : Pool ρ ω ε σ α) (turn : Turn ρ ω) (after : Pool ρ ω ε σ α) : Prop :=
  ∃ events, pool.next program turn = some (events, after) ∧ ∀ event ∈ events, Allowed pool.world event

variable {pool after : Pool ρ ω ε σ α} {turn : Turn ρ ω}

theorem Step.mono {More : World ε σ → ℕ × ε → Prop} (more : ∀ w entry, Allowed w entry → More w entry)
    (step : Step program Allowed pool turn after) : Step program More pool turn after := by
  obtain ⟨events, ran, allowed⟩ := step
  exact ⟨events, ran, fun event mem => more _ _ (allowed event mem)⟩

def returned (pool : Pool ρ ω ε σ α) (job : ℕ) : Option (ρ × α) :=
  match pool.jobs[job]? with
  | some (request, .done result) => some (request, result)
  | _ => none

theorem step_cases (step : Step program Allowed pool turn after) : (∃ req, turn = .arrive req ∧
      after = { pool with jobs := pool.jobs ++ [(req, program req)] }) ∨
    ∃ job drawn req effect next events store, turn = .take job drawn ∧
      pool.jobs[job]? = some (req, .step effect next) ∧ effect job drawn pool.world.store = some (events, store) ∧
      (∀ event ∈ events, Allowed pool.world (job, event)) ∧ after = ⟨pool.world.after job events store,
        pool.jobs.set job (req, next drawn pool.world.store)⟩ := by
  obtain ⟨reported, ran, allowed⟩ := step
  cases turn with
  | arrive req =>
    cases ran
    exact Or.inl ⟨req, rfl, rfl⟩
  | take job drawn =>
    simp only [next] at ran
    split at ran
    · rename_i req effect next found
      split at ran
      · rename_i events store taken
        cases ran
        refine Or.inr ⟨job, drawn, req, effect, next, events, store, rfl, found, taken, ?_, rfl⟩
        intro event mem
        exact allowed _ (List.mem_map_of_mem mem)
      · cases ran
    · cases ran

def play (program : ρ → Task ω ε σ α) (Allowed : World ε σ → ℕ × ε → Prop)
    [∀ world event, Decidable (Allowed world event)] (pool : Pool ρ ω ε σ α) :
    List (Turn ρ ω) → Option (Pool ρ ω ε σ α)
  | [] => some pool
  | turn :: turns =>
    match pool.next program turn with
    | some (events, after) =>
      if ∀ event ∈ events, Allowed pool.world event then after.play program Allowed turns else none
    | none => none

variable {turns : List (Turn ρ ω)}

theorem run_of_play [∀ w event, Decidable (Allowed w event)] {last : Pool ρ ω ε σ α}
    (played : pool.play program Allowed turns = some last) : Run (Step program Allowed) pool turns last := by
  induction turns generalizing pool with
  | nil =>
    cases played
    exact .nil _
  | cons turn turns ih =>
    simp only [play] at played
    split at played
    · rename_i events after ran
      split at played
      · rename_i checked
        exact .cons ⟨events, ran, checked⟩ (ih played)
      · cases played
    · cases played

theorem exists_run_of_play [∀ w event, Decidable (Allowed w event)] {Goal : Pool ρ ω ε σ α → Prop}
    (Holds : Pool ρ ω ε σ α → Prop) [DecidablePred Holds]
    (played : (pool.play program Allowed turns).any (fun last => decide (Holds last)) = true)
    (implies : ∀ last, Run (Step program Allowed) pool turns last → Holds last → Goal last) :
    ∃ last, Run (Step program Allowed) pool turns last ∧ Goal last := by
  grind [Option.any_eq_true, run_of_play]

end Pool

end Phantom.Lib
