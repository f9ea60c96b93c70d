import Mathlib.Data.List.Basic
import Mathlib.Tactic.Ring

namespace Phantom.Lib

/-- The number in big-endian bytes, of which the last `width` are kept. -/
def beBytes : Nat → Nat → List UInt8
  | 0, _ => []
  | width + 1, number => beBytes width (number / 256) ++ [UInt8.ofNat number]

variable (bytes : List UInt8)

def beNumber : Nat := bytes.foldl (fun number byte => number * 256 + byte.toNat) 0

variable (width : Nat)

@[simp] theorem length_beBytes (n : Nat) : (beBytes width n).length = width := by
  induction width generalizing n with
  | zero => rfl
  | succ width ih => rw [beBytes, List.length_append, ih, List.length_singleton]

theorem beNumber_append (byte : UInt8) :
    beNumber (bytes ++ [byte]) = beNumber bytes * 256 + byte.toNat := by
  grind [beNumber]

theorem beNumber_beBytes (n : Nat) (bounded : n < 256 ^ width) : beNumber (beBytes width n) = n := by
  induction width generalizing n with
  | zero =>
    have zero : n = 0 := by omega
    rw [zero]
    rfl
  | succ width ih =>
    grind [beNumber_append, UInt8.toNat_ofNat', beBytes]

def toBeBytes (word : UInt64) : List UInt8 := beBytes 8 word.toNat

def fromBeBytes : UInt64 := UInt64.ofNat (beNumber bytes)

variable (word : UInt64)

@[simp] theorem length_toBeBytes : (toBeBytes word).length = 8 := length_beBytes 8 _

@[simp] theorem fromBeBytes_toBeBytes : fromBeBytes (toBeBytes word) = word := by
  grind [UInt64.toNat_lt, beNumber_beBytes, UInt64.ofNat_toNat, fromBeBytes, toBeBytes]

theorem toBeBytes_injective : Function.Injective toBeBytes := Function.LeftInverse.injective fromBeBytes_toBeBytes

variable {α β : Type} {block : α → List β}

theorem flatMap_injective (wide : 0 < width) (width_eq : ∀ item, (block item).length = width)
    (injective : Function.Injective block) : Function.Injective (fun items : List α => items.flatMap block) := by
  intro left right same
  induction left generalizing right with
  | nil =>
    cases right with
    | nil => rfl
    | cons item items =>
      grind [List.length_append]
  | cons item items ih =>
    cases right with
    | nil =>
      grind [List.length_append]
    | cons other others =>
      grind [List.append_inj]

theorem flatMap_injective_of_first (first : List β → α) (filled : ∀ item, block item ≠ [])
    (first_eq : ∀ item more, first (block item ++ more) = item) :
    Function.Injective (fun items : List α => items.flatMap block) := by
  intro left right same
  induction left generalizing right with
  | nil =>
    cases right with
    | nil => rfl
    | cons item items => exact absurd (List.append_eq_nil_iff.mp same.symm).1 (filled item)
  | cons item items ih =>
    cases right with
    | nil => exact absurd (List.append_eq_nil_iff.mp same).1 (filled item)
    | cons other others =>
      grind [List.append_cancel_left]

end Phantom.Lib
