import Mathlib.Data.List.Sort
import Phantom.Lib.HashMap
import Phantom.Lib.Outcome

namespace Phantom.Lib

/-- An order in which a hash set, or the keys of a hash map, may be iterated. -/
structure HashOrder (α : Type) where
  list : Finset α → List α
  coe_list : ∀ set, (list set : Multiset α) = set.val

namespace HashOrder

variable {α : Type} (order other : HashOrder α) {set : Finset α} {item : α}

theorem nodup_list (set : Finset α) : (order.list set).Nodup := by
  rw [← Multiset.coe_nodup, order.coe_list]
  exact set.nodup

@[simp] theorem mem_list : item ∈ order.list set ↔ item ∈ set := by
  rw [← Multiset.mem_coe, order.coe_list]
  exact Iff.rfl

theorem list_perm (set : Finset α) : (order.list set).Perm (other.list set) := by
  rw [← Multiset.coe_eq_coe, order.coe_list, other.coe_list]

theorem list_perm_toList (set : Finset α) : (order.list set).Perm set.toList := by
  rw [← Multiset.coe_eq_coe, order.coe_list, Finset.coe_toList]

theorem length_list (set : Finset α) : (order.list set).length = set.card := by
  rw [← Multiset.coe_card, order.coe_list, Finset.card_val]

variable {V : Type} [DecidableEq α]

def iterate (map : HashMap α V) : List (α × V) :=
  (order.list map.keys).filterMap fun key => (map.lookup key).map fun value => (key, value)

@[simp] theorem mem_iterate {map : HashMap α V} {key : α} {value : V} :
    (key, value) ∈ order.iterate map ↔ map.lookup key = some value := by
  grind [mem_list, Option.map_eq_some_iff, Finmap.mem_keys, Finmap.mem_of_lookup_eq_some, iterate]

theorem nodup_iterate (map : HashMap α V) : (order.iterate map).Nodup := by
  refine List.Nodup.filterMap ?_ (order.nodup_list _)
  intro left right entry leftHeld rightHeld
  obtain ⟨_, _, rfl⟩ := Option.map_eq_some_iff.mp leftHeld
  obtain ⟨_, _, same⟩ := Option.map_eq_some_iff.mp rightHeld
  exact (congrArg Prod.fst same).symm

def ascending {α β : Type} [LinearOrder β] (key : α → β) (injective : Function.Injective key) :
    HashOrder α where
  list set := Quot.liftOn set.val (fun items => items.insertionSort fun left right => key left ≤ key right)
    (fun left right same =>
      (((List.perm_insertionSort _ left).trans same).trans (List.perm_insertionSort _ right).symm).eq_of_pairwise
          (fun _ _ _ _ below above => injective (le_antisymm below above))
          (List.pairwise_insertionSort (fun left right => key left ≤ key right) left)
          (List.pairwise_insertionSort (fun left right => key left ≤ key right) right))
  coe_list set := by
    obtain ⟨items, nodup⟩ := set
    induction items using Quot.inductionOn with
    | h items => exact Multiset.coe_eq_coe.mpr (List.perm_insertionSort _ items)

end HashOrder

/-- The order in which the futures of a buffered stream complete, by their positions. Nothing is
    promised of a buffer of width zero, which may stay pending for ever. -/
structure Completion where
  order : Nat → Nat → Option (List Nat)
  perm : ∀ {width count positions}, order width count = some positions → positions.Perm (List.range count)
  returns : ∀ {width} count, 0 < width → (order width count).isSome

namespace Completion

variable {ε α : Type} (completion : Completion)
variable {width : Nat} {items : List α}

/-- `buffer_unordered(width)`. -/
def unordered (width : Nat) (items : List α) : Outcome ε (List α) :=
  match completion.order width items.length with
  | some positions => .ok (positions.filterMap fun position => items[position]?)
  | none => .error .unfinished

/-- `try_buffered(width)`, whose outputs keep their order. -/
def ordered (width : Nat) (items : List α) : Outcome ε (List α) :=
  if (completion.order width items.length).isSome then .ok items else .error .unfinished

theorem range_filterMap_get (items : List α) :
    (List.range items.length).filterMap (fun pos => items[pos]?) = items := by
  induction items with
  | nil => rfl
  | cons item items ih =>
    rw [List.length_cons, List.range_succ_eq_map, List.filterMap_cons]
    grind

theorem unordered_cases (width : Nat) (items : List α) :
    (∃ outputs, (completion.unordered width items : Outcome ε (List α)) = .ok outputs ∧ outputs.Perm items) ∨
    ((completion.unordered width items : Outcome ε (List α)) = .error .unfinished ∧ width = 0) := by
  grind [List.Perm.filterMap, perm, range_filterMap_get, returns, unordered]

variable {outputs : List α}

theorem perm_of_unordered (returned : (completion.unordered width items : Outcome ε (List α)) = .ok outputs) :
    outputs.Perm items := by
  rcases completion.unordered_cases (ε := ε) width items with ⟨others, same, perm⟩ | ⟨pending, _⟩
  · rw [returned] at same
    cases same
    exact perm
  · rw [returned] at pending
    cases pending

theorem ordered_cases (width : Nat) (items : List α) :
    (completion.ordered width items : Outcome ε (List α)) = .ok items ∨
    ((completion.ordered width items : Outcome ε (List α)) = .error .unfinished ∧ width = 0) := by
  grind [returns, ordered]

theorem eq_of_ordered (returned : (completion.ordered width items : Outcome ε (List α)) = .ok outputs) :
    outputs = items := by
  grind [ordered_cases]

def inOrder : Completion where
  order _ count := some (List.range count)
  perm same := by cases same; exact List.Perm.refl _
  returns _ _ := rfl

def reversed : Completion where
  order _ count := some (List.range count).reverse
  perm same := by cases same; exact List.reverse_perm _
  returns _ _ := rfl

end Completion

end Phantom.Lib
