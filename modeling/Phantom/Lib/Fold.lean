import Mathlib.Data.List.Sort
import Phantom.Lib.Outcome

namespace Phantom.Lib

section Folds

variable {ε σ α : Type} {f : σ → α → Outcome ε σ} {items others : List α} {first last : σ}
variable {failure : Failure ε} {β : Type} {g : α → Outcome ε β}

variable (Inv : σ → Prop)

theorem foldlM_invariant (keep : ∀ s item next, item ∈ items → Inv s → f s item = .ok next → Inv next)
    (folded : items.foldlM f first = .ok last) (start : Inv first) : Inv last := by
  induction items generalizing first with
  | nil =>
    cases folded
    exact start
  | cons item items ih =>
    grind [Outcome.bind_eq_ok]

/-- What holds after a fold and not before it came about in the turn of one of the items. -/
theorem foldlM_turn (folded : items.foldlM f first = .ok last) (start : ¬ Inv first) (ended : Inv last) :
    ∃ before item after s next, items = before ++ item :: after ∧ before.foldlM f first = .ok s ∧
      f s item = .ok next ∧ ¬ Inv s ∧ Inv next := by
  induction items generalizing first with
  | nil =>
    cases folded
    exact absurd ended start
  | cons item items ih =>
    rw [List.foldlM_cons] at folded
    obtain ⟨next, ran, folded⟩ := Outcome.bind_eq_ok.mp folded
    by_cases held : Inv next
    · exact ⟨[], item, items, first, next, rfl, rfl, ran, start, held⟩
    · obtain ⟨before, turn, after, s, entered, rfl, reached, rest⟩ := ih folded held
      refine ⟨item :: before, turn, after, s, entered, rfl, ?_, rest⟩
      rw [List.foldlM_cons, ran, Outcome.ok_bind, reached]

theorem foldlM_failure_of (keep : ∀ s item next, item ∈ items → Inv s → f s item = .ok next → Inv next)
    (failed : items.foldlM f first = .error failure) (start : Inv first) :
    ∃ s, Inv s ∧ ∃ item ∈ items, f s item = .error failure := by
  induction items generalizing first with
  | nil => cases failed
  | cons item items ih =>
    grind [Outcome.bind_eq_error]

theorem foldlM_failure (failed : items.foldlM f first = .error failure) :
    ∃ s, ∃ item ∈ items, f s item = .error failure := by
  obtain ⟨s, _, found⟩ := foldlM_failure_of (fun _ => True) (fun _ _ _ _ _ _ => trivial) failed trivial
  exact ⟨s, found⟩

theorem foldlM_finishes (steps : ∀ s item, item ∈ items → (f s item).Finishes) : (items.foldlM f first).Finishes := by
  intro failed
  obtain ⟨s, item, mem, failed⟩ := foldlM_failure failed
  exact steps s item mem failed

theorem bind_congr_ok {call : Outcome ε α} {f : α → Outcome ε β}
    (agree : ∀ value, call = .ok value → f value = g value) : call >>= f = call >>= g := by
  cases returned : call with
  | error failure => rfl
  | ok value => exact agree value returned

/-- A fold whose steps commute gives the same outcome in every order of its items. -/
theorem foldlM_perm (keep : ∀ s item next, item ∈ items → Inv s → f s item = .ok next → Inv next)
    (commute : ∀ s left right, left ∈ items → right ∈ items → Inv s → f s left >>= (fun next => f next right) =
    f s right >>= (fun next => f next left))
    (perm : items.Perm others) (start : Inv first) : items.foldlM f first = others.foldlM f first := by
  induction perm generalizing first with
  | nil => rfl
  | cons item perm ih =>
    grind [bind_congr_ok]
  | swap left right items =>
    simp only [List.foldlM_cons]
    rw [← bind_assoc, ← bind_assoc]
    rw [commute first right left (by simp) (by simp) start]
  | trans firstPerm secondPerm ihFirst ihSecond =>
    grind

theorem mapM_mem {outputs : List β} {output : β} (mapped : items.mapM g = .ok outputs) (mem : output ∈ outputs) :
    ∃ item ∈ items, g item = .ok output := by
  induction items generalizing outputs with
  | nil =>
    cases mapped
    cases mem
  | cons item items ih =>
    rw [List.mapM_cons] at mapped
    obtain ⟨first, ran, following⟩ := Outcome.bind_eq_ok.mp mapped
    obtain ⟨rest, restMapped, made⟩ := Outcome.bind_eq_ok.mp following
    cases made
    grind

theorem mapM_failure (failed : items.mapM g = .error failure) : ∃ item ∈ items, g item = .error failure := by
  induction items with
  | nil => cases failed
  | cons item items ih =>
    rw [List.mapM_cons] at failed
    rcases Outcome.bind_eq_error.mp failed with failed | ⟨_, _, failed⟩
    · exact ⟨item, List.mem_cons_self .., failed⟩
    · rcases Outcome.bind_eq_error.mp failed with failed | ⟨_, _, failed⟩
      · grind
      · cases failed

theorem mapM_finishes (each : ∀ item, (g item).Finishes) : (items.mapM g).Finishes := by
  intro failed
  obtain ⟨item, _, failed⟩ := mapM_failure failed
  exact each item failed

variable {value : α → β}

theorem mapM_returns {Early : Prop}
    (each : ∀ item ∈ items, g item = .ok (value item) ∨ (g item = .error .unfinished ∧ Early)) :
    items.mapM g = .ok (items.map value) ∨ (items.mapM g = .error .unfinished ∧ Early) := by
  induction items with
  | nil => exact Or.inl rfl
  | cons item items ih =>
    rw [List.mapM_cons]
    rcases each item (List.mem_cons_self ..) with ran | ⟨pending, early⟩
    · rw [ran, Outcome.ok_bind]
      rcases ih (fun other mem => each other (List.mem_cons_of_mem _ mem)) with rest | ⟨rest, early⟩
      · rw [rest]
        exact Or.inl rfl
      · rw [rest]
        exact Or.inr ⟨rfl, early⟩
    · rw [pending]
      exact Or.inr ⟨rfl, early⟩

end Folds

theorem insertionSort_perm {α κ : Type} [LinearOrder κ] (key : α → κ) (injective : Function.Injective key)
    {left right : List α} (perm : left.Perm right) : left.insertionSort (fun first second => key first ≤ key second) =
      right.insertionSort (fun first second => key first ≤ key second) :=
  (((List.perm_insertionSort _ left).trans perm).trans (List.perm_insertionSort _ right).symm).eq_of_pairwise
    (fun _ _ _ _ below above => injective (le_antisymm below above))
    (List.pairwise_insertionSort (fun first second => key first ≤ key second) left)
    (List.pairwise_insertionSort (fun first second => key first ≤ key second) right)

theorem orderedInsert_comm {α : Type} (r : α → α → Prop) [DecidableRel r] [Std.Total r] [IsTrans α r]
    [Std.Antisymm r] (left right : α) (items : List α) :
    (items.orderedInsert r left).orderedInsert r right = (items.orderedInsert r right).orderedInsert r left := by
  have two : ∀ tail, (if r right left then right :: left :: tail else left :: right :: tail) =
      if r left right then left :: right :: tail else right :: left :: tail := by
    intro tail
    by_cases first : r right left
    · by_cases second : r left right
      · rw [antisymm first second]
      · simp [first, second]
    · have second := (total_of r left right).resolve_right first
      simp [first, second]
  induction items with
  | nil => exact two []
  | cons item items ih =>
    by_cases leftBefore : r left item <;> by_cases rightBefore : r right item
    · simp only [leftBefore, rightBefore, ↓reduceIte, List.orderedInsert_cons]
      exact two _
    · have after : ¬ r right left := fun before => rightBefore (IsTrans.trans _ _ _ before leftBefore)
      simp [leftBefore, rightBefore, after]
    · have after : ¬ r left right := fun before => leftBefore (IsTrans.trans _ _ _ before rightBefore)
      simp [leftBefore, rightBefore, after]
    · simp [leftBefore, rightBefore, ih]

end Phantom.Lib
