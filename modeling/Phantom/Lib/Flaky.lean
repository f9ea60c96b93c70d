import Phantom.Lib.Frame

namespace Phantom.Lib

/-- What becomes of a store operation: it succeeds, it fails without an effect, or it fails although its
    effect is there. -/
inductive Fate where
  | done
  | refused
  | unflushed
deriving DecidableEq, Repr

abbrev Faults (κ : Type) := ℕ → κ → Fate

structure Flaky (σ : Type) where
  store : σ
  turn : ℕ

abbrev FlakyAction (σ ε : Type) := Action (Flaky σ) ε

namespace Flaky

variable {σ ε α κ : Type}

section Operations

variable (faults : Faults κ) (kind : κ) (error : ε)

def operate (change : σ → σ) (view : σ → α) : FlakyAction σ ε α := fun state =>
  match faults state.turn kind with
  | .done => (.ok (view state.store), ⟨change state.store, state.turn + 1⟩)
  | .refused => (.fail error, ⟨state.store, state.turn + 1⟩)
  | .unflushed => (.fail error, ⟨change state.store, state.turn + 1⟩)

/-- A row that is read. That there is none is an error of its own. -/
def readRow (missing : ε) (row : σ → Option α) : FlakyAction σ ε α := do
  let found ← operate faults kind error id row
  Action.lift (.ofOption missing found)

def write (change : σ → σ) : FlakyAction σ ε Unit := operate faults kind error change fun _ => ()

end Operations

def within (action : Action σ ε α) : FlakyAction σ ε α := fun state =>
  ((action state.store).1, { state with store := (action state.store).2 })

section Rules

open Phantom.Lib.Action

variable {faults : Faults κ} {kind : κ} {error missing : ε} {s : Flaky σ}
variable {Failed : Failure ε → Flaky σ → Prop} {change : σ → σ}

theorem wp_within {action : Action σ ε α} {Returned : α → σ → Prop} {Failed : Failure ε → σ → Prop}
    (spec : action.wp s.store Returned Failed) : (within action).wp s (fun value after => Returned value after.store)
      (fun failure after => Failed failure after.store) := by
  grind [wp, within]

theorem wp_within_get {Returned : σ → Flaky σ → Prop} :
    (within (Action.get : Action σ ε σ)).wp s Returned Failed ↔ Returned s.store s := Iff.rfl

theorem wp_within_modify {Returned : Unit → Flaky σ → Prop} :
    (within (Action.modify change : Action σ ε Unit)).wp s Returned Failed ↔
      Returned () { s with store := change s.store } := Iff.rfl

variable (row : σ → Option α)

theorem wp_readRow : (readRow faults kind error missing row).wp s
      (fun value after => row s.store = some value ∧ after.store = s.store)
      (fun failure after => (∃ other, failure = .err other) ∧ after.store = s.store ∧
        ((∃ turn, faults turn kind ≠ .done) ∨ row s.store = none)) := by
  rw [readRow, wp_bind]
  unfold Action.wp operate
  cases fate : faults s.turn kind with
  | done =>
    cases found : row s.store with
    | none => exact ⟨⟨missing, rfl⟩, rfl, Or.inr rfl⟩
    | some value => exact ⟨rfl, rfl⟩
  | refused | unflushed => exact ⟨⟨error, rfl⟩, rfl, Or.inl ⟨s.turn, by rw [fate]; exact nofun⟩⟩

theorem wp_lookup : (readRow faults kind error missing row).attempt.wp s
      (fun found after => after.store = s.store ∧ ∀ value, found = some value → row s.store = some value)
      (fun _ _ => False) := by
  apply wp_attempt
  apply wp_mono (wp_readRow row)
  · grind
  · grind

variable {Holds : σ → Prop}

theorem wp_write (before : Holds s.store) (after : Holds (change s.store)) :
    (write faults kind error change).wp s (fun _ after => Holds after.store)
      (fun failure after => (∃ other, failure = .err other) ∧ Holds after.store) := by
  unfold Action.wp write operate
  cases faults s.turn kind with
  | done => exact after
  | refused => exact ⟨⟨error, rfl⟩, before⟩
  | unflushed => exact ⟨⟨error, rfl⟩, after⟩

theorem wp_put (before : Holds s.store) (after : Holds (change s.store)) :
    (write faults kind error change).attempt.wp s (fun _ after => Holds after.store) (fun _ _ => False) :=
  wp_attempt (wp_write before after)

theorem wp_put_sure (sure : ∀ turn, faults turn kind ≠ .refused) :
    (write faults kind error change).attempt.wp s (fun _ after => after.store = change s.store)
      (fun _ _ => False) := by
  unfold Action.wp Action.attempt write operate
  cases fate : faults s.turn kind with
  | done | unflushed => exact rfl
  | refused => exact absurd fate (sure s.turn)

end Rules

/-- Where no operation fails, the call does what the plain one does. -/
def Follows (flaky : FlakyAction σ ε α) (plain : Action σ ε α) : Prop :=
  ∀ s, (flaky s).1 = (plain s.store).1 ∧ (flaky s).2.store = (plain s.store).2

def faultless : Faults κ := fun _ _ => .done

namespace Follows

variable {β : Type} {flaky : FlakyAction σ ε α} {plain : Action σ ε α} {next : α → FlakyAction σ ε β}

theorem lift (outcome : Outcome ε α) : Follows (Action.lift outcome) (Action.lift outcome : Action σ ε α) :=
  fun _ => ⟨rfl, rfl⟩

theorem within (action : Action σ ε α) : Follows (within action) action := fun _ => ⟨rfl, rfl⟩

theorem bind {rest : α → Action σ ε β} (first : Follows flaky plain)
    (second : ∀ value, Follows (next value) (rest value)) :
    Follows (flaky >>= next) (plain >>= rest) := by
  intro s
  have same := first s
  simp only [Bind.bind]
  cases ran : flaky s with
  | mk outcome after =>
    cases plainly : plain s.store with
    | mk other store =>
      rw [ran, plainly] at same
      obtain ⟨rfl, rfl⟩ := same
      cases outcome with
      | ok value => exact second value after
      | error failure => exact ⟨rfl, rfl⟩

/-- A view of the store, which the plain call has as a pure one. -/
theorem view {look : σ → α} {rest : σ → Action σ ε β} (first : Follows flaky fun store => (.ok (look store), store))
    (second : ∀ store, Follows (next (look store)) (rest store)) : Follows (flaky >>= next) (Action.get >>= rest) := by
  intro s
  obtain ⟨outcome, store⟩ := first s
  have ran : flaky s = (.ok (look s.store), (flaky s).2) := Prod.ext outcome rfl
  have rested := second s.store (flaky s).2
  rw [store] at rested
  simp only [Bind.bind]
  rw [ran]
  exact rested

theorem attempt (follows : Follows flaky plain) : Follows flaky.attempt plain.attempt := by
  intro s
  have same := follows s
  grind [Action.attempt]

theorem lookup {kind : κ} {error missing : ε} (row : σ → Option α) :
    Follows (readRow faultless kind error missing row).attempt (fun store => (.ok (row store), store)) := by
  intro s
  simp only [Action.attempt, readRow, operate, faultless, Bind.bind, Action.lift]
  cases row s.store <;> exact ⟨rfl, rfl⟩

theorem wp {store : σ} {Returned : α → σ → Prop} {Failed : Failure ε → σ → Prop} (follows : Follows flaky plain)
    (spec : flaky.wp ⟨store, 0⟩ (fun value after => Returned value after.store)
      (fun failure after => Failed failure after.store)) : plain.wp store Returned Failed := by
  have same := follows ⟨store, 0⟩
  grind [Action.wp]

end Follows

end Flaky

end Phantom.Lib
