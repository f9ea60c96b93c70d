import Phantom.Lib.Outcome

namespace Phantom.Lib

/-- A call that works on a store. What it wrote before it failed stays written. -/
def Action (σ ε α : Type) := σ → Outcome ε α × σ

namespace Action

variable {σ ε α β : Type}

instance : Monad (Action σ ε) where
  pure value := fun state => (.ok value, state)
  bind action next := fun state =>
    match action state with
    | (.ok value, after) => next value after
    | (.error failure, after) => (.error failure, after)

def get : Action σ ε σ := fun state => (.ok state, state)

def modify (change : σ → σ) : Action σ ε Unit := fun state => (.ok (), change state)

def lift (outcome : Outcome ε α) : Action σ ε α := fun state => (outcome, state)

def unlessDone (done : Bool) (action : Action σ ε Unit) : Action σ ε Unit :=
  if done then pure () else action

/-- `Result::ok` on what the call returns: a panic still goes through. -/
def attempt (action : Action σ ε α) : Action σ ε (Option α) := fun state =>
  match action state with
  | (.ok value, after) => (.ok (some value), after)
  | (.error (.err _), after) => (.ok none, after)
  | (.error failure, after) => (.error failure, after)

/-- What holds of the result and of the store when the call is over. -/
def wp (action : Action σ ε α) (state : σ) (Returned : α → σ → Prop)
    (Failed : Failure ε → σ → Prop) : Prop :=
  match action state with
  | (.ok value, after) => Returned value after
  | (.error failure, after) => Failed failure after

section Rules

variable {action : Action σ ε α} {s : σ} {Returned More : α → σ → Prop}
variable {Failed MoreFailed : Failure ε → σ → Prop}
variable {next : α → Action σ ε β}

theorem wp_mono (spec : wp action s Returned Failed)
    (returned : ∀ value after, Returned value after → More value after)
    (failed : ∀ failure after, Failed failure after → MoreFailed failure after) : wp action s More MoreFailed := by
  grind [wp]

theorem wp_bind {Returned : β → σ → Prop} : wp (action >>= next) s Returned Failed ↔
      wp action s (fun value after => wp (next value) after Returned Failed) Failed := by
  simp only [wp, Bind.bind]
  grind

variable {Middle : α → σ → Prop}

theorem wp_seq {Returned : β → σ → Prop} (spec : wp action s Middle MoreFailed)
    (returned : ∀ value after, Middle value after → wp (next value) after Returned Failed)
    (failed : ∀ failure after, MoreFailed failure after → Failed failure after) :
    wp (action >>= next) s Returned Failed := wp_bind.mpr (wp_mono spec returned failed)

theorem wp_then {Returned : β → σ → Prop} (spec : wp action s Middle Failed)
    (returned : ∀ value after, Middle value after → wp (next value) after Returned Failed) :
    wp (action >>= next) s Returned Failed := wp_seq spec returned fun _ _ failed => failed

theorem wp_sure {Returned : β → σ → Prop} (spec : wp action s Middle fun _ _ => False)
    (returned : ∀ value after, Middle value after → wp (next value) after Returned Failed) :
    wp (action >>= next) s Returned Failed := wp_seq spec returned fun _ _ impossible => impossible.elim

variable {value : α}

@[simp] theorem wp_pure : wp (pure value : Action σ ε α) s Returned Failed ↔ Returned value s := Iff.rfl

@[simp] theorem wp_get {Returned : σ → σ → Prop} : wp (get : Action σ ε σ) s Returned Failed ↔ Returned s s := Iff.rfl

@[simp] theorem wp_modify {change : σ → σ} {Returned : Unit → σ → Prop} :
    wp (modify change : Action σ ε Unit) s Returned Failed ↔ Returned () (change s) := Iff.rfl

theorem wp_lift_ok (returned : Returned value s) : wp (lift (.ok value) : Action σ ε α) s Returned Failed := returned

theorem wp_lift {outcome : Outcome ε α} (returned : ∀ value, outcome = .ok value → Returned value s)
    (failed : ∀ failure, outcome = .error failure → Failed failure s) :
    wp (lift outcome : Action σ ε α) s Returned Failed := by
  cases outcome with
  | ok value => exact returned value rfl
  | error failure => exact failed failure rfl

theorem wp_attempt {Returned : Option α → σ → Prop}
    (spec : wp action s (fun value after => Returned (some value) after)
      (fun failure after => (∃ error, failure = .err error) ∧ Returned none after)) :
    wp (attempt action) s Returned Failed := by
  grind [wp, attempt]

end Rules

end Action

end Phantom.Lib
