import Mathlib.Tactic.IntervalCases
import Phantom.Lib.Bytes

namespace Phantom.Lib

def escapeControl : ℕ → List Char
  | 8 => ['\\', 'b']
  | 9 => ['\\', 't']
  | 10 => ['\\', 'n']
  | 12 => ['\\', 'f']
  | 13 => ['\\', 'r']
  | code => ['\\', 'u', '0', '0', Nat.digitChar (code / 16), Nat.digitChar (code % 16)]

def escapeChar (char : Char) : List Char :=
  if char = '"' ∨ char = '\\' then ['\\', char]
  else if char.toNat < 32 then escapeControl char.toNat
  else [char]

/-- A text that JSON writes as it is. -/
def Plain (text : List Char) : Prop := ∀ char ∈ text, escapeChar char = [char]

def jsonString (text : List Char) : List Char := '"' :: (text.flatMap escapeChar ++ ['"'])

theorem Plain.flatMap_escapeChar {text : List Char} (plain : Plain text) : text.flatMap escapeChar = text := by
  induction text with
  | nil => rfl
  | cons char text ih =>
    rw [List.flatMap_cons, plain char List.mem_cons_self, ih fun other mem => plain other (List.mem_cons_of_mem _ mem)]
    rfl

def firstEscaped : List Char → Char
  | '\\' :: 'b' :: _ => Char.ofNat 8
  | '\\' :: 't' :: _ => Char.ofNat 9
  | '\\' :: 'n' :: _ => Char.ofNat 10
  | '\\' :: 'f' :: _ => Char.ofNat 12
  | '\\' :: 'r' :: _ => Char.ofNat 13
  | '\\' :: 'u' :: _ :: _ :: high :: low :: _ =>
    Char.ofNat ("0123456789abcdef".toList.idxOf high * 16 + "0123456789abcdef".toList.idxOf low)
  | '\\' :: char :: _ => char
  | char :: _ => char
  | [] => default

theorem firstEscaped_escapeControl {code : ℕ} (control : code < 32) (more : List Char) :
    firstEscaped (escapeControl code ++ more) = Char.ofNat code := by
  interval_cases code <;> rfl

theorem firstEscaped_escapeChar (char : Char) (more : List Char) : firstEscaped (escapeChar char ++ more) = char := by
  unfold escapeChar
  split
  · rename_i special
    rcases special with rfl | rfl <;> rfl
  · rename_i unmarked
    split
    · rename_i control
      rw [firstEscaped_escapeControl control, Char.ofNat_toNat]
    · have printed : char ≠ '\\' := fun same => unmarked (Or.inr same)
      simp [firstEscaped, printed]

theorem escapeChar_ne_nil (char : Char) : escapeChar char ≠ [] := by
  unfold escapeChar
  split
  · exact List.cons_ne_nil _ _
  · split
    · unfold escapeControl
      split <;> exact List.cons_ne_nil _ _
    · exact List.cons_ne_nil _ _

theorem jsonString_injective : Function.Injective jsonString := by
  intro left right same
  rw [jsonString, jsonString, List.cons.injEq, List.append_left_inj] at same
  exact flatMap_injective_of_first firstEscaped escapeChar_ne_nil firstEscaped_escapeChar same.2

end Phantom.Lib
