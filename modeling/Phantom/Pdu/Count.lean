import Mathlib.Algebra.Group.Int.Defs
import Mathlib.Algebra.Group.Nat.Defs
import Mathlib.Tactic.Common

namespace Phantom.Pdu

inductive Direction where
  | forward
  | backward
deriving DecidableEq, Repr

inductive Count where
  | normal (count : UInt64)
  | backfilled (count : Int64)
deriving DecidableEq

/-- `i64::saturating_add` and `i64::saturating_sub` on the exact result. -/
def saturateI64 (number : Int) : Int64 := Int64.ofInt (max (-2 ^ 63) (min number (2 ^ 63 - 1)))

/-- `u64::saturating_add` and `u64::saturating_sub` on the exact result. -/
def saturateU64 (number : Int) : UInt64 := UInt64.ofNat (max 0 (min number (2 ^ 64 - 1))).toNat

namespace Count

def fromSigned (signed : Int64) : Count :=
  if signed.toInt ≤ 0 then .backfilled signed else .normal signed.toUInt64

def fromUnsigned (unsigned : UInt64) : Count := fromSigned unsigned.toInt64

def saturatingAdd : Count → UInt64 → Count
  | .normal count, add => .normal (saturateU64 (count.toNat + add.toNat))
  | .backfilled count, add => .backfilled (saturateI64 (count.toInt + add.toInt64.toInt))

def saturatingSub : Count → UInt64 → Count
  | .normal count, sub => .normal (saturateU64 (count.toNat - sub.toNat))
  | .backfilled count, sub => .backfilled (saturateI64 (count.toInt - sub.toInt64.toInt))

def saturatingInc (count : Count) : Direction → Count
  | .forward => count.saturatingAdd 1
  | .backward => count.saturatingSub 1

def value : Count → Int
  | .normal count => count.toNat
  | .backfilled count => count.toInt

/-- What `debug_assert_valid` asks for. -/
def Valid : Count → Prop
  | .normal _ => True
  | .backfilled count => count.toInt ≤ 0

def Stored : Count → Prop
  | .normal count => 1 ≤ count.toNat
  | .backfilled count => count.toInt ≤ -1

instance : (count : Count) → Decidable count.Valid
  | .normal _ => inferInstanceAs (Decidable True)
  | .backfilled _ => inferInstanceAs (Decidable (_ ≤ _))

instance : (count : Count) → Decidable count.Stored
  | .normal _ => inferInstanceAs (Decidable (_ ≤ _))
  | .backfilled _ => inferInstanceAs (Decidable (_ ≤ _))

def isBackfilled : Count → Bool
  | .normal _ => false
  | .backfilled _ => true

def saturated (count : Count) : Bool := decide (count.value = 2 ^ 64 - 1 ∨ count.value = -2 ^ 63)

end Count

section Numbers

theorem toInt_saturateI64 {n : Int} (low : -2 ^ 63 ≤ n) (high : n < 2 ^ 63) : (saturateI64 n).toInt = n := by
  grind [Int64.toInt_ofInt_of_le, saturateI64]

theorem toNat_saturateU64 (n : Int) : ((saturateU64 n).toNat : Int) = max 0 (min n (2 ^ 64 - 1)) := by
  unfold saturateU64
  rw [UInt64.toNat_ofNat']
  omega

theorem toNat_toUInt64 (n : Int64) : (n.toUInt64.toNat : Int) =
    if 0 ≤ n.toInt then n.toInt else n.toInt + 2 ^ 64 := by
  have word : n.toInt = n.toBitVec.toInt := rfl
  have bits : n.toUInt64.toNat = n.toBitVec.toNat := rfl
  have bounded := n.toBitVec.isLt
  grind

theorem toInt_toInt64 (n : UInt64) : n.toInt64.toInt =
    if n.toNat < 2 ^ 63 then (n.toNat : Int) else n.toNat - 2 ^ 64 := by
  have word : n.toInt64.toInt = n.toBitVec.toInt := rfl
  have bits : n.toBitVec.toNat = n.toNat := rfl
  grind [BitVec.toInt_eq_toNat_cond]

end Numbers

end Phantom.Pdu
