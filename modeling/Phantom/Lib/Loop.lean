import Phantom.Lib.Outcome

namespace Phantom.Lib

variable {ε σ ρ : Type}

/-- A loop whose body goes on with a new state or leaves with a result, given up as unfinished
    after `fuel` iterations. -/
def loop (body : σ → Outcome ε (σ ⊕ ρ)) : Nat → σ → Outcome ε ρ
  | 0, _ => .error .unfinished
  | fuel + 1, state => do
    match ← body state with
    | .inl next => loop body fuel next
    | .inr result => return result

section Rules

variable {body : σ → Outcome ε (σ ⊕ ρ)} {fuel : Nat} {s : σ} {result : ρ} (Inv : σ → Prop)

/-- What the body keeps holds of every state, so what it leaves with has the postcondition. -/
theorem loop_invariant (Post : ρ → Prop) (keep : ∀ s next, Inv s → body s = .ok (.inl next) → Inv next)
    (leave : ∀ s result, Inv s → body s = .ok (.inr result) → Post result) (returned : loop body fuel s = .ok result)
    (start : Inv s) : Post result := by
  induction fuel generalizing s with
  | zero => cases returned
  | succ fuel ih =>
    obtain ⟨turn, ran, rest⟩ := Outcome.bind_eq_ok.mp returned
    cases turn with
    | inl next => exact ih rest (keep s next start ran)
    | inr final =>
      cases rest
      exact leave s result start ran

/-- A loop that decreases a measure finishes, with a result or with a failure of its body. -/
theorem loop_finishes (measure : σ → Nat) (turns : ∀ s, Inv s → (body s).Finishes)
    (smaller : ∀ s next, Inv s → body s = .ok (.inl next) → Inv next ∧ measure next < measure s) (start : Inv s)
    (enough : measure s < fuel) : (loop body fuel s).Finishes := by
  induction fuel generalizing s with
  | zero => omega
  | succ fuel ih =>
    cases ran : body s with
    | error failure =>
      intro same
      rw [loop, ran, Outcome.error_bind] at same
      exact turns s start (by rw [ran, Except.error.inj same])
    | ok turn =>
      cases turn with
      | inl next =>
        grind [Outcome.ok_bind, loop]
      | inr final =>
        simp only [loop, ran, Outcome.ok_bind]
        exact .ok final

theorem loop_failure (Fails : Failure ε → Prop) (keep : ∀ s next, Inv s → body s = .ok (.inl next) → Inv next)
    (body_fails : ∀ s failure, Inv s → body s = .error failure → Fails failure) {failure : Failure ε}
    (failed : loop body fuel s = .error failure) (start : Inv s) : failure = .unfinished ∨ Fails failure := by
  induction fuel generalizing s with
  | zero =>
    cases failed
    exact Or.inl rfl
  | succ fuel ih =>
    cases ran : body s with
    | error other =>
      grind [Outcome.error_bind, loop]
    | ok turn =>
      grind [Outcome.ok_bind, Outcome.pure_eq_ok, loop]

theorem loop_add (more : Nat) (finished : (loop body fuel s).Finishes) :
    loop body (fuel + more) s = loop body fuel s := by
  induction fuel generalizing s with
  | zero => exact absurd rfl finished
  | succ fuel ih =>
    rw [Nat.add_right_comm]
    cases ran : body s with
    | error failure => simp only [loop, ran, Outcome.error_bind]
    | ok turn =>
      grind [Outcome.ok_bind, loop]

/-- A loop that finishes within `bound` turns has one outcome, whatever number it is given. -/
theorem loop_settles {bound : Nat} (finished : (loop body bound s).Finishes) (fuel : Nat) :
    loop body fuel s = loop body bound s ∨ (loop body fuel s = .error .unfinished ∧ fuel < bound) := by
  by_cases enough : bound ≤ fuel
  · grind [loop_add, Nat.add_sub_cancel']
  · by_cases early : loop body fuel s = .error .unfinished
    · exact Or.inr ⟨early, by omega⟩
    · have same := loop_add (bound - fuel) early
      grind

theorem loop_congr {other : σ → Outcome ε (σ ⊕ ρ)} (keep : ∀ s next, Inv s → body s = .ok (.inl next) → Inv next)
    (agree : ∀ s, Inv s → body s = other s) (start : Inv s) (fuel : Nat) : loop body fuel s = loop other fuel s := by
  induction fuel generalizing s with
  | zero => rfl
  | succ fuel ih =>
    cases ran : body s with
    | error failure => simp only [loop, ← agree s start, ran, Outcome.error_bind]
    | ok turn =>
      grind [Outcome.ok_bind, loop]

end Rules

end Phantom.Lib
