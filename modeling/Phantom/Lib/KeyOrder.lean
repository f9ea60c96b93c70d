import Mathlib.Data.List.Lex
import Phantom.Lib.BTree
import Phantom.Lib.Bytes

namespace Phantom.Lib

instance byteOrder : LinearOrder UInt8 where
  le_refl _ := UInt8.le_refl _
  le_trans _ _ _ := UInt8.le_trans
  lt_iff_le_not_ge left right := by
    rw [UInt8.le_iff_toNat_le, UInt8.le_iff_toNat_le, UInt8.lt_iff_toNat_lt]
    omega
  le_antisymm _ _ := UInt8.le_antisymm
  le_total := UInt8.le_total
  toDecidableLE := inferInstance
  toDecidableEq := inferInstance
  toDecidableLT := inferInstance

/-- Byte strings, in the order a store keeps its keys. -/
abbrev Bytes := List UInt8

theorem append_lt_append_iff {left right : Bytes} (width : left.length = right.length) (more others : Bytes) :
    left ++ more < right ++ others ↔ left < right ∨ left = right ∧ more < others := by
  induction left generalizing right with
  | nil =>
    grind
  | cons byte bytes ih =>
    cases right with
    | nil => cases width
    | cons other rest =>
      grind [List.cons_lt_cons_iff]

theorem append_cons_isPrefix_iff {α : Type} {separator : α} {left right more others : List α}
    (leftFree : separator ∉ left)
    (rightFree : separator ∉ right) :
    left ++ separator :: more <+: right ++ separator :: others ↔ left = right ∧ more <+: others := by
  induction left generalizing right with
  | nil =>
    cases right with
    | nil => simp
    | cons item right =>
      grind
  | cons item left ih =>
    have leftDifferent : separator ≠ item := fun same => leftFree (same ▸ List.mem_cons_self)
    cases right with
    | nil => simp [leftDifferent.symm]
    | cons other right =>
      grind

theorem beBytes_inj {width left right : Nat} (leftBounded : left < 256 ^ width) (rightBounded : right < 256 ^ width) :
    beBytes width left = beBytes width right ↔ left = right := by
  grind [beNumber_beBytes]

theorem beBytes_lt {width left right : Nat} (leftBounded : left < 256 ^ width) (rightBounded : right < 256 ^ width) :
    beBytes width left < beBytes width right ↔ left < right := by
  induction width generalizing left right with
  | zero =>
    grind
  | succ width ih =>
    have quotient : ∀ {n}, n < 256 ^ (width + 1) → n / 256 < 256 ^ width := by
      omega
    have leftQuotient := quotient leftBounded
    have rightQuotient := quotient rightBounded
    rw [beBytes, beBytes, append_lt_append_iff (by simp), ih leftQuotient rightQuotient,
      beBytes_inj leftQuotient rightQuotient, List.cons_lt_cons_iff, UInt8.lt_iff_toNat_lt, UInt8.toNat_ofNat',
      UInt8.toNat_ofNat']
    simp only [List.not_lt_nil, and_false, or_false]
    omega

theorem toBeBytes_lt (left right : UInt64) : toBeBytes left < toBeBytes right ↔ left.toNat < right.toNat :=
  beBytes_lt left.toNat_lt right.toNat_lt

theorem le_of_isPrefix {start key : Bytes} (begins : start <+: key) : start ≤ key := by
  obtain ⟨rest, rfl⟩ := begins
  rw [← not_lt]
  induction start with
  | nil => exact List.not_lt_nil _
  | cons byte start ih =>
    grind [List.cons_lt_cons_iff]

theorem isPrefix_of_le {start key later : Bytes} (reached : start ≤ key) (before : key < later)
    (begins : start <+: later) :
    start <+: key := by
  obtain ⟨rest, rfl⟩ := begins
  rw [← not_lt] at reached
  induction start generalizing key with
  | nil => exact List.nil_prefix
  | cons byte start ih =>
    cases key with
    | nil => exact absurd (List.nil_lt_cons byte start) reached
    | cons other key =>
      grind [List.cons_lt_cons_iff]

section Scans

variable {α : Type} {order : α → α → Prop} {items : List α}

theorem dropWhile_eq_filter {drop : α → Bool} (sorted : items.Pairwise order)
    (closed : ∀ item later, order item later → drop later = true → drop item = true) :
    items.dropWhile drop = items.filter (fun item => !drop item) := by
  induction items with
  | nil => rfl
  | cons item items ih =>
    obtain ⟨first, rest⟩ := List.pairwise_cons.mp sorted
    rw [List.dropWhile_cons, List.filter_cons]
    cases dropped : drop item with
    | true => simp only [if_true, Bool.not_true, Bool.false_eq_true, if_false, ih rest]
    | false =>
      have kept : items.filter (fun item => !drop item) = items := by
        apply List.filter_eq_self.mpr
        intro later mem
        cases late : drop later with
        | false => rfl
        | true =>
          have early := closed item later (first later mem) late
          rw [dropped] at early
          cases early
      simp only [Bool.false_eq_true, if_false, Bool.not_false, if_true, kept]

theorem takeWhile_eq_filter {take : α → Bool} (sorted : items.Pairwise order)
    (closed : ∀ item ∈ items, ∀ later ∈ items, order item later → take later = true → take item = true) :
    items.takeWhile take = items.filter take := by
  induction items with
  | nil => rfl
  | cons item items ih =>
    grind [List.pairwise_cons, List.takeWhile_cons, List.filter_eq_nil_iff]

end Scans

namespace BTreeMap

variable {K V : Type} [LinearOrder K]

/-- The entries from a key on, in ascending order. -/
def seek (map : BTreeMap K V) (start : K) : List (K × V) := map.entries.dropWhile fun entry => decide (entry.1 < start)

/-- The entries up to a key, in descending order. -/
def seekForPrev (map : BTreeMap K V) (start : K) : List (K × V) :=
  map.entries.reverse.dropWhile fun entry => decide (start < entry.1)

section Cursors

variable {map : BTreeMap K V} {start : K} {take : K × V → Bool}

theorem takeWhile_seek (closed : ∀ item ∈ map.entries, ∀ later ∈ map.entries, start ≤ item.1 → item.1 < later.1 →
    take later = true → take item = true) :
    (map.seek start).takeWhile take = map.entries.filter (fun entry => decide (start ≤ entry.1) && take entry) := by
  have dropped : map.seek start = map.entries.filter (fun entry => decide (start ≤ entry.1)) := by
    grind [dropWhile_eq_filter, sorted, seek]
  rw [dropped, takeWhile_eq_filter (map.sorted.filter _), List.filter_filter]
  · congr 1
    funext entry
    rw [Bool.and_comm]
  · grind

theorem takeWhile_seekForPrev (closed : ∀ item ∈ map.entries, ∀ later ∈ map.entries, item.1 ≤ start →
    later.1 < item.1 → take later = true → take item = true) : (map.seekForPrev start).takeWhile take =
      (map.entries.filter fun entry => decide (entry.1 ≤ start) && take entry).reverse := by
  have sorted := List.pairwise_reverse.mpr map.sorted
  have dropped : map.seekForPrev start = map.entries.reverse.filter (fun entry => decide (entry.1 ≤ start)) := by
    grind [dropWhile_eq_filter, seekForPrev]
  rw [dropped, takeWhile_eq_filter (sorted.filter _), List.filter_filter, List.filter_reverse]
  · congr 2
    funext entry
    rw [Bool.and_comm]
  · grind

end Cursors

/-- A scan from a prefix on, up to where it ends, meets the keys that begin with it. -/
theorem takeWhile_seek_isPrefix (map : BTreeMap Bytes V) (start : Bytes) :
    (map.seek start).takeWhile (fun entry => decide (start <+: entry.1)) =
      map.entries.filter (fun entry => decide (start <+: entry.1)) := by
  rw [takeWhile_seek]
  · grind [le_of_isPrefix]
  · grind [isPrefix_of_le]

end BTreeMap

end Phantom.Lib
