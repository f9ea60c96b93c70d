import Phantom.Lib.Protocol

namespace Phantom.Lib

open Function

/-- Locks by name. Each guards a part of the world, which is good while nobody holds the lock. -/
structure Guard (κ ε σ τ : Type) where
  holder : σ → κ → Option ℕ
  part : World ε σ → κ → τ
  Good : κ → τ → Prop := fun _ _ => True

namespace Guard

variable {κ ε σ τ ω α : Type} (guard : Guard κ ε σ τ)
variable {effect : ℕ → ω → σ → Option (List ε × σ)} {next : ω → σ → Task ω ε σ α} (job : ℕ)

/-- A job may take a lock that is free, and keep or give back one that it holds. -/
def Locks (key : κ) (before after : σ) : Prop :=
  guard.holder after key = guard.holder before key ∨
    guard.holder before key = none ∧ guard.holder after key = some job ∨
    guard.holder before key = some job ∧ guard.holder after key = none

/-- What a job does leaves alone what it holds no lock for. -/
def Respects (world after : World ε σ) : Prop :=
  ∀ key, guard.Locks job key world.store after.store ∧
    (guard.holder world.store key ≠ some job → guard.part after key = guard.part world key)

def under (Inv : World ε σ → Prop) : Protocol ε σ where
  Inv := Inv
  May := guard.Respects
  quiet _ _ _ := ⟨Or.inl rfl, fun _ => rfl⟩

abbrev protocol : Protocol ε σ :=
  guard.under fun world => ∀ key, guard.holder world.store key = none → guard.Good key (guard.part world key)

def Held (key : κ) (value : τ) (world : World ε σ) : Prop :=
  guard.holder world.store key = some job ∧ guard.part world key = value

def Outside (world : World ε σ) : Prop := ∀ key, guard.holder world.store key ≠ some job

def Holding (key : κ) (value : τ) (world : World ε σ) : Prop :=
  (∀ other, guard.holder world.store other = some job ↔ other = key) ∧ guard.part world key = value

/-- A change of the store that takes no lock, gives none back, and of the guarded parts changes one. -/
def Changes [DecidableEq κ] (key : κ) (change : σ → σ) (act : τ → τ) : Prop :=
  ∀ (world : World ε σ) job, guard.holder (change world.store) = guard.holder world.store ∧
    guard.part (world.after job [] (change world.store)) = update (guard.part world) key (act (guard.part world key))

variable {guard} {job : ℕ} {key : κ} {value : τ} {w : World ε σ} {Inv : World ε σ → Prop}

theorem Locks.of_other {other : ℕ} {before after : σ} (locks : guard.Locks other key before after)
    (ne : other ≠ job) : guard.holder after key = some job ↔ guard.holder before key = some job := by
  rcases locks with kept | ⟨free, theirs⟩ | ⟨theirs, free⟩
  · rw [kept]
  · grind
  · grind

theorem update_cases [DecidableEq κ] (holder : κ → Option ℕ) (key lock : κ) (who : Option ℕ) :
    update holder key who lock = holder lock ∨ holder lock = holder key ∧ update holder key who lock = who := by
  rcases eq_or_ne lock key with rfl | ne
  · exact Or.inr ⟨rfl, update_self ..⟩
  · exact Or.inl (update_of_ne ne ..)

theorem Respects.of_same {after : World ε σ} (locks : guard.holder after.store = guard.holder w.store)
    (parts : ∀ key, guard.holder w.store key ≠ some job → guard.part after key = guard.part w key) :
    guard.Respects job w after := fun key => ⟨Or.inl (congrFun locks key), parts key⟩

section Stability

variable {protocol : Protocol ε σ}
variable (respects : ∀ {job w after}, protocol.May job w after → guard.Respects job w after)

include respects

variable (guard) in
theorem mine_stable : protocol.Stable job (fun w => guard.holder w.store key = some job) :=
  fun _ _ _ _ ne _ may mine => ((respects may key).1.of_other ne).mpr mine

theorem held_stable : protocol.Stable job (guard.Held job key value) := by
  rintro other events store w ne _ may ⟨mine, same⟩
  refine ⟨((respects may key).1.of_other ne).mpr mine, ((respects may key).2 ?_).trans same⟩
  rw [mine]
  exact fun theirs => ne (Option.some.inj theirs).symm

end Stability

/-- To set who holds a lock may do the same to other locks that are one with it. -/
theorem mutex {protocol : Protocol ε σ} (guard : Guard κ ε σ τ) (key : κ) (set : Option ℕ → σ → σ)
    (respects : ∀ {job w after}, protocol.May job w after → guard.Respects job w after)
    (may : ∀ {job who w}, guard.Respects job w ⟨set who w.store, w.trace⟩ → protocol.May job w ⟨set who w.store, w.trace⟩)
    (self : ∀ who store, guard.holder (set who store) key = who)
    (others : ∀ who store lock, guard.holder (set who store) lock = guard.holder store lock ∨
      guard.holder store lock = guard.holder store key ∧ guard.holder (set who store) lock = who)
    (parts : ∀ who (w : World ε σ), guard.part ⟨set who w.store, w.trace⟩ = guard.part w)
    (inv : ∀ who w, protocol.Inv w → protocol.Inv ⟨set who w.store, w.trace⟩) :
    protocol.Mutex (fun store => guard.holder store key) set where
  self := self
  stable _ := guard.mine_stable respects
  take job w free := may fun lock =>
    ⟨(others (some job) w.store lock).imp_right fun set => Or.inl ⟨set.1.trans free, set.2⟩, fun _ =>
      congrFun (parts _ w) lock⟩
  give _ w mine := may fun lock =>
    ⟨(others none w.store lock).imp_right fun set => Or.inr ⟨set.1.trans mine, set.2⟩, fun _ => congrFun (parts _ w) lock⟩
  inv := inv

theorem outside_stable : (guard.under Inv).Stable job (guard.Outside job) :=
  fun _ _ _ _ ne _ may outside key held => outside key (((may key).1.of_other ne).mp held)

theorem holding_stable : (guard.under Inv).Stable job (guard.Holding job key value) := by
  rintro other events store w ne _ may ⟨held, same⟩
  refine ⟨fun lock => ((may lock).1.of_other ne).trans (held lock), ?_⟩
  have elsewhere : guard.holder w.store key ≠ some other := by
    grind
  exact ((may key).2 elsewhere).trans same

variable {Returned : α → World ε σ → Prop}

section Rules

variable [DecidableEq κ]

theorem wp_acquire (outside : guard.Outside job w)
    (steps : ∀ later drawn events store, effect job drawn later.store = some (events, store) →
      guard.holder later.store key = none ∧ guard.holder store = update (guard.holder later.store) key (some job) ∧
      guard.part (later.after job events store) = guard.part later)
    (more : ∀ (later : World ε σ) value drawn store, guard.Holding job key value later →
      guard.Good key value → guard.protocol.wp job Returned (next drawn store) later) :
    guard.protocol.wp job Returned (.step effect next) w := by
  apply Protocol.wp_step outside_stable outside
  intro later drawn events store inv outside taken
  obtain ⟨free, locks, part⟩ := steps later drawn events store taken
  have mine : guard.holder store key = some job := by rw [locks, update_self]
  have others : ∀ {lock}, lock ≠ key → guard.holder store lock = guard.holder later.store lock :=
    fun ne => by rw [locks, update_of_ne ne]
  refine ⟨fun lock => ⟨?_, fun _ => congrFun part lock⟩, fun lock unheld => ?_,
    more _ _ drawn later.store ⟨fun lock => ?_, congrFun part key⟩ (inv key free)⟩
  · by_cases same : lock = key
    · subst same
      exact Or.inr (Or.inl ⟨free, mine⟩)
    · exact Or.inl (others same)
  · rw [part]
    have ne : lock ≠ key := fun same => Option.some_ne_none job (mine.symm.trans (same ▸ unheld))
    exact inv lock ((others ne).symm.trans unheld)
  · grind [Outside, World.after_store]

theorem wp_change {change : σ → σ} {act : τ → τ} (changes : guard.Changes key change act)
    (holding : guard.Holding job key value w) (changed : ∀ drawn store, effect job drawn store = some ([], change store))
    (more : ∀ drawn store last, guard.Holding job key (act value) last →
      guard.protocol.wp job Returned (next drawn store) last) :
    guard.protocol.wp job Returned (.step effect next) w := by
  apply Protocol.wp_step holding_stable holding
  rintro later drawn events store inv ⟨held, rfl⟩ taken
  cases (changed drawn later.store).symm.trans taken
  obtain ⟨locks, parts⟩ := changes later job
  refine ⟨fun lock => ⟨Or.inl (congrFun locks lock), fun elsewhere => ?_⟩, fun lock free => ?_,
    more drawn later.store _ ⟨fun lock => ?_, ?_⟩⟩
  · rw [parts, update_of_ne fun same => elsewhere ((held lock).mpr same)]
  · rw [World.after_store, locks] at free
    rw [parts, update_of_ne (by grind)]
    exact inv lock free
  · rw [World.after_store, locks]
    exact held lock
  · rw [parts, update_self]

theorem wp_release (holding : guard.Holding job key value w)
    (steps : ∀ later drawn events store, guard.part later key = value →
      effect job drawn later.store = some (events, store) →
      guard.holder store = update (guard.holder later.store) key none ∧
      (∀ other ≠ key, guard.part (later.after job events store) other = guard.part later other) ∧
      guard.Good key (guard.part (later.after job events store) key))
    (more : ∀ drawn store last, guard.Outside job last → guard.protocol.wp job Returned (next drawn store) last) :
    guard.protocol.wp job Returned (.step effect next) w := by
  apply Protocol.wp_step holding_stable holding
  rintro later drawn events store inv ⟨held, same⟩ taken
  obtain ⟨locks, parts, good⟩ := steps later drawn events store same taken
  have free : guard.holder store key = none := by rw [locks, update_self]
  have others : ∀ {lock}, lock ≠ key → guard.holder store lock = guard.holder later.store lock :=
    fun ne => by rw [locks, update_of_ne ne]
  refine ⟨fun lock => ?_, fun lock unheld => ?_, more drawn later.store _ fun lock mine => ?_⟩
  · by_cases same : lock = key
    · subst same
      have mine := (held lock).mpr rfl
      exact ⟨Or.inr (Or.inr ⟨mine, free⟩), fun elsewhere => absurd mine elsewhere⟩
    · exact ⟨Or.inl (others same), fun _ => parts lock same⟩
  · by_cases same : lock = key
    · exact same ▸ good
    · rw [parts lock same]
      exact inv lock ((others same).symm.trans unheld)
  · grind [World.after_store]

end Rules

section Pools

variable {ρ : Type} {program : ρ → Task ω ε σ α} {store : σ} {turns : List (Turn ρ ω)} {pool : Pool ρ ω ε σ α}

/-- Jobs that hold no lock when they come and none when they go keep what the locks guard, and only jobs
    that are there hold locks. -/
theorem run_sound (start : ∀ job req w, guard.Outside job w →
      (guard.under Inv).wp job (fun _ => guard.Outside job) (program req) w)
    (free : ∀ key, guard.holder store key = none) (good : Inv ⟨store, []⟩)
    (run : Run (Pool.Step program fun _ _ => True) (Pool.idle store) turns pool) :
    Protocol.Sound (guard.under Inv) (fun job (_ : ρ) (_ : α) => guard.Outside job) pool ∧
      ∀ key job, guard.holder pool.world.store key = some job → job < pool.jobs.length := by
  refine run.invariant (fun pool => Protocol.Sound (guard.under Inv)
    (fun job (_ : ρ) (_ : α) => guard.Outside job) pool ∧
      ∀ key job, guard.holder pool.world.store key = some job → job < pool.jobs.length) ?_
    ⟨.idle good, fun key job held => ?_⟩
  · rintro pool turn after ⟨sound, holders⟩ step
    have next := sound.step_from (fun req _ => start _ req _ fun key held =>
      Nat.lt_irrefl _ (holders key _ held)) step
    refine ⟨next, ?_⟩
    intro key job held
    rcases Pool.step_cases step with ⟨req, rfl, rfl⟩ |
      ⟨stepping, drawn, req, effect, rest, events, store, rfl, found, taken, allowed, rfl⟩
    · grind
    · have inside : stepping < pool.jobs.length := (List.getElem?_eq_some_iff.mp found).1
      have may := (sound.jobs stepping req _ found _ drawn events store .refl sound.inv taken allowed).1
      rw [List.length_set]
      rcases (may key).1 with kept | ⟨_, mine⟩ | ⟨_, released⟩
      · exact holders key job (kept.symm.trans held)
      · cases mine.symm.trans held
        exact inside
      · cases released.symm.trans held
  · cases (free key).symm.trans held

theorem free_of_returned (sound : Protocol.Sound guard.protocol (fun job (_ : ρ) (_ : α) => guard.Outside job) pool)
    (holders : ∀ key job, guard.holder pool.world.store key = some job → job < pool.jobs.length)
    (returned : ∀ job < pool.jobs.length, (pool.returned job).isSome) (key : κ) :
    guard.holder pool.world.store key = none := by
  cases held : guard.holder pool.world.store key with
  | none => rfl
  | some job =>
    grind [Option.isSome_iff_exists, Protocol.Sound.returned, Outside]

end Pools

end Guard

end Phantom.Lib
