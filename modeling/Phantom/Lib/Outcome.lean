import Mathlib.Data.List.Basic

namespace Phantom.Lib

/-- How a call can fail to return a value: with an error of its own, by a panic,
    or by a loop that is still running after the given number of iterations. -/
inductive Failure (ε : Type) where
  | err (error : ε)
  | panic (message : String)
  | unfinished
deriving DecidableEq, Repr

abbrev Outcome (ε α : Type) := Except (Failure ε) α

/-- `Result::map_err`: a panic has no error to map. -/
def Failure.map {ε δ : Type} (f : ε → δ) : Failure ε → Failure δ
  | err error => .err (f error)
  | panic message => .panic message
  | unfinished => .unfinished

namespace Outcome

variable {ε α β : Type}

def fail (error : ε) : Outcome ε α := .error (.err error)

def ofOption (error : ε) : Option α → Outcome ε α
  | some value => .ok value
  | none => fail error

def expect (message : String) : Option α → Outcome ε α
  | some value => .ok value
  | none => .error (.panic message)

variable (error : ε)

@[simp] theorem ofOption_some (value : α) : ofOption error (some value) = .ok value := rfl

@[simp] theorem ofOption_none : ofOption error (none : Option α) = fail error := rfl

variable (value : α)

@[simp] theorem ok_bind (f : α → Outcome ε β) : (Except.ok value : Outcome ε α) >>= f = f value := rfl

@[simp] theorem error_bind (failure : Failure ε) (f : α → Outcome ε β) :
    (Except.error failure : Outcome ε α) >>= f = .error failure := rfl

@[simp] theorem fail_bind (f : α → Outcome ε β) : (fail error : Outcome ε α) >>= f = fail error := rfl

@[simp] theorem pure_eq_ok : (pure value : Outcome ε α) = .ok value := rfl

@[simp] theorem fail_ne_ok (value : α) : (fail error : Outcome ε α) ≠ .ok value := nofun

theorem bind_eq_ok {x : Outcome ε α} {f : α → Outcome ε β} {result : β} :
    x >>= f = .ok result ↔ ∃ value, x = .ok value ∧ f value = .ok result := by
  cases x with
  | error failure | ok value => simp

variable {failure : Failure ε}

theorem bind_eq_error {x : Outcome ε α} {f : α → Outcome ε β} :
    x >>= f = .error failure ↔ x = .error failure ∨ ∃ value, x = .ok value ∧ f value = .error failure := by
  cases x with
  | error other | ok value => simp

variable {x : Option α}

theorem ofOption_eq_ok {error : ε} {value : α} : ofOption error x = .ok value ↔ x = some value := by
  cases x <;> simp [ofOption, fail]

theorem expect_eq_ok {message : String} {value : α} :
    (expect message x : Outcome ε α) = .ok value ↔ x = some value := by
  cases x <;> simp [expect]

theorem ofOption_failure {error : ε} (failed : ofOption error x = .error failure) : failure = .err error := by
  cases x with
  | none =>
    cases failed
    rfl
  | some value => cases failed

/-- The call returns a value or an error of its own: it neither panics nor runs on. -/
def Answers (call : Outcome ε α) : Prop := (∃ value, call = .ok value) ∨ ∃ error, call = fail error

/-- Whenever the call fails, it fails in one of the `allowed` ways. -/
def FailsOnly (allowed : Failure ε → Prop) (call : Outcome ε α) : Prop :=
  ∀ failure, call = .error failure → allowed failure

namespace FailsOnly

variable {allowed : Failure ε → Prop}

theorem ok (value : α) : FailsOnly allowed (.ok value : Outcome ε α) := nofun

variable {error : ε}

theorem fail (own : allowed (.err error)) : FailsOnly allowed (.fail error : Outcome ε α) := by
  intro failure failed
  cases failed
  exact own

variable {call : Outcome ε α}

theorem bind {next : α → Outcome ε β} (first : FailsOnly allowed call)
    (second : ∀ value, call = .ok value → FailsOnly allowed (next value)) : FailsOnly allowed (call >>= next) := by
  intro failure failed
  rcases bind_eq_error.mp failed with failed | ⟨value, returned, failed⟩
  · exact first failure failed
  · exact second value returned failure failed

theorem answers (only : FailsOnly (fun failure => ∃ error, failure = .err error) call) : call.Answers := by
  cases call with
  | ok value => exact Or.inl ⟨value, rfl⟩
  | error failure =>
    obtain ⟨error, rfl⟩ := only failure rfl
    exact Or.inr ⟨error, rfl⟩

end FailsOnly

def Finishes (call : Outcome ε α) : Prop := call ≠ .error .unfinished

namespace Finishes

theorem ok (value : α) : Finishes (.ok value : Outcome ε α) := nofun

variable (error : ε)

theorem ofOption (x : Option α) : Finishes (.ofOption error x) := by
  cases x <;> exact nofun

variable {next : α → Outcome ε β} {call : Outcome ε α}

theorem bind_of_ok (first : call.Finishes) (second : ∀ value, call = .ok value → (next value).Finishes) :
    Finishes (call >>= next) := by
  intro failed
  rcases bind_eq_error.mp failed with failed | ⟨value, returned, failed⟩
  · exact first failed
  · exact second value returned failed

theorem bind (first : call.Finishes) (second : ∀ value, (next value).Finishes) : Finishes (call >>= next) :=
  first.bind_of_ok fun value _ => second value

end Finishes

end Outcome

end Phantom.Lib
