import Mathlib.Data.Nat.Basic

namespace Phantom.Lib

/-- The number as a `u32`, or the largest one. -/
def saturate32 (n : ℕ) : UInt32 := .ofNat (min n (UInt32.size - 1))

def saturate64 (n : ℕ) : UInt64 := .ofNat (min n (UInt64.size - 1))

theorem saturate32_toNat (n : ℕ) : (saturate32 n).toNat = min n (UInt32.size - 1) := by
  have bound : min n (UInt32.size - 1) < UInt32.size := by
    have positive : 0 < UInt32.size := by decide
    omega
  exact Nat.mod_eq_of_lt bound

theorem saturate64_toNat (n : ℕ) : (saturate64 n).toNat = min n (UInt64.size - 1) := by
  have bound : min n (UInt64.size - 1) < UInt64.size := by
    have positive : 0 < UInt64.size := by decide
    omega
  exact Nat.mod_eq_of_lt bound

theorem toNat_min32 (x y : UInt32) : (min x y).toNat = min x.toNat y.toNat := by
  rw [Nat.min_def]
  exact apply_ite UInt32.toNat (x ≤ y) x y

theorem toNat_min64 (x y : UInt64) : (min x y).toNat = min x.toNat y.toNat := by
  rw [Nat.min_def]
  exact apply_ite UInt64.toNat (x ≤ y) x y

end Phantom.Lib
