import Mathlib.Data.List.Basic
import Mathlib.Order.Lattice

namespace Phantom.Core

variable {Item σ : Type} [LinearOrder Item]

def intersection : List (List Item) → List Item
  | [] => []
  | first :: input => first.filter fun targ => input.all fun other => other.any (· = targ)

/-- `filter` with a closure that has a state. -/
def filterMut (closure : Item → σ → Bool × σ) : List Item → σ → List Item
  | [], _ => []
  | targ :: first, state =>
    let answer := closure targ state
    if answer.1 then targ :: filterMut closure first answer.2 else filterMut closure first answer.2

/-- `all` over the peekable cursors: a cursor after the first that does not have the item is not moved. -/
def advance (targ : Item) : List (List Item) → Bool × List (List Item)
  | [] => (true, [])
  | it :: input =>
    let it := it.dropWhile (· < targ)
    if it.head? = some targ then
      let rest := advance targ input
      (rest.1, it :: rest.2)
    else (false, it :: input)

def intersectionSorted : List (List Item) → List Item
  | [] => []
  | first :: input => filterMut advance first input

/-- The loop over `next_if`, which takes the items up to `ai` from the shared stream. -/
def nextUpTo (ai : Item) : List Item → Bool × List Item
  | [] => (false, [])
  | bi :: b =>
    if bi ≤ ai then
      if ai = bi then (true, b) else nextUpTo ai b
    else (false, bi :: b)

def intersectionSortedStream2 (a b : List Item) : List Item := filterMut nextUpTo a b

def Ascending (sequence : List Item) : Prop := sequence.Pairwise (· < ·)

variable {targ : Item} {it first b : List Item} {input : List (List Item)}

/-- A closure that answers by a property of its state, and keeps the property for every later item. -/
theorem filterMut_eq {closure : Item → σ → Bool × σ} (Good : σ → Prop) (Holds : σ → Item → Prop)
    [∀ state, DecidablePred (Holds state)]
    (rule : ∀ targ state, Good state → ((closure targ state).1 = true ↔ Holds state targ) ∧ Good (closure targ state).2 ∧
      ∀ later, targ < later → (Holds (closure targ state).2 later ↔ Holds state later))
    (ascending : Ascending first) {state : σ} (good : Good state) :
    filterMut closure first state = first.filter (Holds state ·) := by
  induction first generalizing state with
  | nil => rfl
  | cons targ first ih =>
    obtain ⟨above, rest⟩ := List.pairwise_cons.mp ascending
    obtain ⟨answer, kept, later⟩ := rule targ state good
    have tail : filterMut closure first (closure targ state).2 = first.filter (Holds state ·) :=
      (ih rest kept).trans (List.filter_congr fun item mem => decide_eq_decide.mpr (later item (above item mem)))
    rw [filterMut, List.filter_cons, tail]
    simp only [answer, decide_eq_true_eq]

theorem mem_dropWhile_lt {item : Item} (reached : targ ≤ item) : item ∈ it.dropWhile (· < targ) ↔ item ∈ it := by
  induction it with
  | nil => rfl
  | cons next it ih =>
    rw [List.dropWhile_cons]
    split
    · next less =>
      have passed : item ≠ next := ((of_decide_eq_true less).trans_le reached).ne'
      rw [ih, List.mem_cons, or_iff_right passed]
    · rfl

theorem head_dropWhile_lt (ascending : Ascending it) : (it.dropWhile (· < targ)).head? = some targ ↔ targ ∈ it := by
  induction it with
  | nil => simp
  | cons next it ih =>
    obtain ⟨above, rest⟩ := List.pairwise_cons.mp ascending
    rw [List.dropWhile_cons]
    split
    · next less =>
      rw [ih rest, List.mem_cons, or_iff_right (of_decide_eq_true less).ne']
    · next reached =>
      have least : ∀ item ∈ it, targ < item := fun item mem => (not_lt.mp (by simpa using reached)).trans_lt
        (above item mem)
      rw [List.head?_cons, Option.some_inj, List.mem_cons, or_iff_left fun mem => (least targ mem).false]
      exact eq_comm

theorem advance_spec (targ : Item) (input : List (List Item)) (ascending : ∀ it ∈ input, Ascending it) :
    ((advance targ input).1 = true ↔ ∀ it ∈ input, targ ∈ it) ∧ (∀ it ∈ (advance targ input).2, Ascending it) ∧
      ∀ later, targ < later → ((∀ it ∈ (advance targ input).2, later ∈ it) ↔ ∀ it ∈ input, later ∈ it) := by
  induction input with
  | nil => simp [advance]
  | cons it input ih =>
    obtain ⟨sorted, rest⟩ := List.forall_mem_cons.mp ascending
    obtain ⟨answer, kept, later⟩ := ih rest
    have moved : Ascending (it.dropWhile (· < targ)) := sorted.sublist (List.dropWhile_sublist _)
    rw [advance]
    dsimp only
    split
    · next found =>
      have mem := (head_dropWhile_lt sorted).mp found
      refine ⟨?_, List.forall_mem_cons.mpr ⟨moved, kept⟩, fun item above => ?_⟩
      · rw [List.forall_mem_cons, answer, and_iff_right mem]
      · rw [List.forall_mem_cons, List.forall_mem_cons, later item above, mem_dropWhile_lt above.le]
    · next missing =>
      have absent := mt (head_dropWhile_lt sorted).mpr missing
      refine ⟨?_, List.forall_mem_cons.mpr ⟨moved, rest⟩, fun item above => ?_⟩
      · exact ⟨fun all => (by cases all), fun all => absurd (all it List.mem_cons_self) absent⟩
      · rw [List.forall_mem_cons, List.forall_mem_cons, mem_dropWhile_lt above.le]

theorem nextUpTo_spec (ai : Item) (b : List Item) (ascending : Ascending b) :
    ((nextUpTo ai b).1 = true ↔ ai ∈ b) ∧ Ascending (nextUpTo ai b).2 ∧
      ∀ later, ai < later → (later ∈ (nextUpTo ai b).2 ↔ later ∈ b) := by
  induction b with
  | nil => exact ⟨by simp [nextUpTo], ascending, fun _ _ => Iff.rfl⟩
  | cons bi b ih =>
    obtain ⟨above, rest⟩ := List.pairwise_cons.mp ascending
    obtain ⟨answer, kept, later⟩ := ih rest
    rw [nextUpTo]
    split
    · next reached =>
      have passed : ∀ item, ai < item → (item ∈ bi :: b ↔ item ∈ b) := fun item beyond =>
        List.mem_cons.trans (or_iff_right (reached.trans_lt beyond).ne')
      split
      · next same => exact ⟨by simp [same], rest, fun item beyond => (passed item beyond).symm⟩
      · next different =>
        refine ⟨?_, kept, fun item beyond => (later item beyond).trans (passed item beyond).symm⟩
        rw [answer, List.mem_cons, or_iff_right different]
    · next beyond =>
      refine ⟨⟨fun found => (by cases found), fun mem => absurd ?_ beyond⟩, ascending, fun _ _ => Iff.rfl⟩
      rcases List.mem_cons.mp mem with rfl | inside
      · exact le_rfl
      · exact (above ai inside).le

/-- The items of a family: those of its sequences that every sequence has. -/
def Common (family : List (List Item)) (item : Item) : Prop := (∃ sequence ∈ family, item ∈ sequence) ∧
  ∀ sequence ∈ family, item ∈ sequence

theorem intersection_cons (first : List Item) (input : List (List Item)) :
    intersection (first :: input) = first.filter (fun targ => ∀ it ∈ input, targ ∈ it) := by
  apply List.filter_congr
  intro targ _
  rw [Bool.eq_iff_iff]
  simp

theorem intersectionSorted_eq (family : List (List Item)) (ascending : ∀ sequence ∈ family, Ascending sequence) :
    intersectionSorted family = intersection family := by
  cases family with
  | nil => rfl
  | cons first input =>
    obtain ⟨sorted, rest⟩ := List.forall_mem_cons.mp ascending
    rw [intersection_cons]
    exact filterMut_eq (fun input => ∀ it ∈ input, Ascending it) (fun input targ => ∀ it ∈ input, targ ∈ it)
      advance_spec sorted rest

theorem sorted_intersections_agree (family : List (List Item)) (ascending : ∀ sequence ∈ family, Ascending sequence) :
    (∀ item, item ∈ intersectionSorted family ↔ Common family item) ∧ Ascending (intersectionSorted family) ∧
    ∀ a b : List Item, family = [a, b] →
      intersectionSortedStream2 a b = intersectionSorted family ∧ intersectionSorted family = intersection family := by
  rw [intersectionSorted_eq family ascending]
  cases family with
  | nil => exact ⟨by simp [intersection, Common], .nil, by simp⟩
  | cons first input =>
    obtain ⟨sorted, rest⟩ := List.forall_mem_cons.mp ascending
    rw [intersection_cons]
    refine ⟨fun item => ?_, sorted.filter _, ?_⟩
    · simp only [Common, List.mem_filter, decide_eq_true_eq, List.forall_mem_cons, List.exists_mem_cons_iff]
      exact ⟨fun mem => ⟨Or.inl mem.1, mem⟩, And.right⟩
    · rintro a b ⟨⟩
      refine ⟨?_, rfl⟩
      refine (filterMut_eq Ascending (fun b targ => targ ∈ b) nextUpTo_spec sorted (rest b List.mem_cons_self)).trans ?_
      simp

theorem sorted_intersections_agree_on_three :
    (3 ∈ intersectionSorted [[1, 2, 3], [2, 3], [0, 3]] ↔ Common [[1, 2, 3], [2, 3], [0, 3]] 3) ∧
      intersectionSortedStream2 [1, 2, 4] [2, 3, 4] = intersectionSorted [[1, 2, 4], [2, 3, 4]] :=
  ⟨(sorted_intersections_agree [[1, 2, 3], [2, 3], [0, 3]] (by simp [Ascending])).1 3,
    ((sorted_intersections_agree [[1, 2, 4], [2, 3, 4]] (by simp [Ascending])).2.2 _ _ rfl).1⟩

end Phantom.Core
