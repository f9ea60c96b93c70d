import Mathlib.Data.List.Basic

namespace Phantom.Lib

/-- Every entry of the trace is permitted by the entries before it. -/
def Lawful {ε : Type} (Permitted : List ε → ε → Prop) (trace : List ε) : Prop :=
  ∀ before entry rest, trace = before ++ entry :: rest → Permitted before entry

namespace Lawful

variable {ε : Type} {Permitted : List ε → ε → Prop} {trace rest : List ε} {entry : ε}

theorem nil : Lawful Permitted [] := by
  intro before entry rest shape
  simp at shape

theorem take (lawful : Lawful Permitted (trace ++ rest)) : Lawful Permitted trace := by
  rintro before entry after rfl
  exact lawful before entry (after ++ rest) (by simp)

theorem concat (lawful : Lawful Permitted trace) (permitted : Permitted trace entry) :
    Lawful Permitted (trace ++ [entry]) := by
  intro before other rest shape
  rcases List.eq_nil_or_concat rest with rfl | ⟨front, last, rfl⟩
  · grind [List.append_inj']
  · rw [List.concat_eq_append, ← List.cons_append, ← List.append_assoc] at shape
    exact lawful before other front (List.append_inj' shape rfl).1

theorem last (lawful : Lawful Permitted (trace ++ [entry])) : Permitted trace entry := lawful trace entry [] rfl

end Lawful

end Phantom.Lib
