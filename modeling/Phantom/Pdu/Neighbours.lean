import Phantom.Pdu.RawId

namespace Phantom.Pdu

open Phantom.Lib

section Ranks

variable {position pos row : Count} (count : UInt64)

theorem rank_normal :
    ((Count.normal count).rank : Int) = if count.toNat = 0 then 0 else 2 ^ 64 + (count.toNat : Int) := by
  simp only [Count.rank]
  split
  · rfl
  · omega

theorem rank_backfilled (count : Int64) : ((Count.backfilled count).rank : Int) =
    if 0 ≤ count.toInt then 1 + count.toInt else 2 ^ 64 + 1 + count.toInt := by
  grind [toNat_toUInt64, Count.rank]

theorem rank_stored (stored : row.Stored) : 1 ≤ row.value ∧ (row.rank : Int) = 2 ^ 64 + row.value ∨
      -2 ^ 63 ≤ row.value ∧ row.value ≤ -1 ∧ (row.rank : Int) = 2 ^ 64 + 1 + row.value := by
  cases row with
  | normal count =>
    have first : 1 ≤ count.toNat := stored
    rw [rank_normal, if_neg (by omega)]
    exact Or.inl ⟨Int.ofNat_le.mpr first, rfl⟩
  | backfilled count =>
    have negative : count.toInt ≤ -1 := stored
    rw [rank_backfilled, if_neg (by omega)]
    exact Or.inr ⟨count.le_toInt, negative, rfl⟩

theorem eq_of_value (valid : pos.Valid) (stored : row.Stored) (same : row.value = pos.value) : row = pos := by
  cases pos with
  | normal left =>
    cases row with
    | normal right =>
      have equal : (right.toNat : Int) = left.toNat := same
      rw [UInt64.toNat.inj (Int.ofNat.inj equal)]
    | backfilled right =>
      have negative : right.toInt ≤ -1 := stored
      simp only [Count.value] at same
      omega
  | backfilled left =>
    have nonpositive : left.toInt ≤ 0 := valid
    cases row with
    | normal right =>
      have first : 1 ≤ right.toNat := stored
      simp only [Count.value] at same
      omega
    | backfilled right => rw [Int64.toInt.inj same]

theorem rank_forward_normal : (((Count.normal count).saturatingInc .forward).rank : Int) =
      2 ^ 64 + min ((count.toNat : Int) + 1) (2 ^ 64 - 1) := by
  have next := toNat_saturateU64 (count.toNat + UInt64.toNat 1)
  have one : UInt64.toNat 1 = 1 := rfl
  simp only [Count.saturatingInc, Count.saturatingAdd, rank_normal]
  omega

theorem rank_forward_backfilled {count : Int64} (valid : count.toInt ≤ 0) :
    (((Count.backfilled count).saturatingInc .forward).rank : Int) =
      if count.toInt ≤ -2 then 2 ^ 64 + 2 + count.toInt else 2 + count.toInt := by
  have low := count.le_toInt
  have one : (UInt64.toInt64 1).toInt = 1 := by decide
  grind [toInt_saturateI64, rank_backfilled, Count.saturatingInc, Count.saturatingAdd]

theorem rank_backward_normal : (((Count.normal count).saturatingInc .backward).rank : Int) = if count.toNat ≤
    1 then 0 else 2 ^ 64 + (count.toNat : Int) - 1 := by
  grind [UInt64.toNat_lt, toNat_saturateU64, rank_normal, Count.saturatingInc, Count.saturatingSub]

theorem rank_backward_backfilled {count : Int64} (valid : count.toInt ≤ 0) :
    (((Count.backfilled count).saturatingInc .backward).rank : Int) = 2 ^ 64 + 1 + max (count.toInt - 1) (-2 ^ 63) := by
  have low := count.le_toInt
  have one : (UInt64.toInt64 1).toInt = 1 := by decide
  simp only [Count.saturatingInc, Count.saturatingSub, rank_backfilled, one]
  by_cases first : count.toInt = -2 ^ 63
  · have stays : (saturateI64 (count.toInt - 1)).toInt = -2 ^ 63 := by
      rw [first]
      decide
    omega
  · grind [toInt_saturateI64]

/-- The rows that a scan away from a position is to meet: around zero there are no backfilled ones, and no row is at
    a position without a neighbour. -/
structure Clear (position row : Count) : Prop where
  seam : -1 ≤ position.value → position.value ≤ 1 → row.isBackfilled = false
  last : position.saturated = true → row ≠ position

theorem Clear.values (clear : Clear pos row) (valid : pos.Valid) (stored : row.Stored) :
    (-1 ≤ pos.value → pos.value ≤ 1 → 0 ≤ row.value) ∧
      (pos.value = 2 ^ 64 - 1 ∨ pos.value = -2 ^ 63 → row.value ≠ pos.value) := by
  constructor
  · intro low high
    have front := clear.seam low high
    cases row with
    | normal count => exact Int.natCast_nonneg _
    | backfilled count => cases front
  · intro top same
    exact clear.last (decide_eq_true top) (eq_of_value valid stored same)

theorem rank_forward (valid : pos.Valid) (stored : row.Stored) (clear : Clear pos row) :
    (pos.saturatingInc .forward).rank ≤ row.rank ↔ pos.value < row.value := by
  obtain ⟨seam, last⟩ := clear.values valid stored
  have rank := rank_stored stored
  rw [← Int.ofNat_le]
  cases pos with
  | normal count =>
    have bound := count.toNat_lt
    rw [rank_forward_normal]
    have value : (Count.normal count).value = count.toNat := rfl
    omega
  | backfilled count =>
    have nonpositive : count.toInt ≤ 0 := valid
    rw [rank_forward_backfilled nonpositive]
    have value : (Count.backfilled count).value = count.toInt := rfl
    omega

theorem rank_backward (valid : pos.Valid) (stored : row.Stored) (clear : Clear pos row) :
    row.rank ≤ (pos.saturatingInc .backward).rank ↔ row.value < pos.value := by
  obtain ⟨seam, last⟩ := clear.values valid stored
  have rank := rank_stored stored
  rw [← Int.ofNat_le]
  cases pos with
  | normal count =>
    rw [rank_backward_normal]
    have value : (Count.normal count).value = count.toNat := rfl
    omega
  | backfilled count =>
    have low := count.le_toInt
    have nonpositive : count.toInt ≤ 0 := valid
    rw [rank_backward_backfilled nonpositive]
    have value : (Count.backfilled count).value = count.toInt := rfl
    omega

theorem rank_lt_iff (stored : pos.Stored) (other : row.Stored) : pos.rank < row.rank ↔ pos.value < row.value := by
  have left := rank_stored stored
  have right := rank_stored other
  omega

end Ranks

end Phantom.Pdu
