import Mathlib.Data.List.Basic
import Mathlib.Order.Lattice

namespace Phantom.Lib

/-- `slice::binary_search_by`: the index of a matching item of a slice that is
    sorted for `compare`. -/
def searchBetween {α : Type} (compare : α → Ordering) (items : List α) :
    Nat → Nat → Nat → Option Nat
  | 0, _, _ => none
  | fuel + 1, low, high =>
    if low < high then
      let middle := (low + high) / 2
      match items[middle]? with
      | none => none
      | some item =>
        match compare item with
        | .eq => some middle
        | .lt => searchBetween compare items fuel (middle + 1) high
        | .gt => searchBetween compare items fuel low middle
    else none

def binarySearchBy {α : Type} (compare : α → Ordering) (items : List α) : Option Nat :=
  searchBetween compare items items.length 0 items.length

/-- A `BTreeMap`: its entries in strictly ascending key order. -/
structure BTreeMap (K V : Type) [LinearOrder K] where
  entries : List (K × V)
  sorted : entries.Pairwise fun left right => left.1 < right.1

namespace BTreeMap

variable {K V : Type} [LinearOrder K]
variable {key : K} {value : V} {entries : List (K × V)} {map : BTreeMap K V}

instance [DecidableEq V] : DecidableEq (BTreeMap K V) := fun left right =>
  decidable_of_iff (left.entries = right.entries)
    ⟨fun same => by cases left; cases right; cases same; rfl, congrArg _⟩

def empty : BTreeMap K V := ⟨[], .nil⟩

def insertEntry (key : K) (value : V) : List (K × V) → List (K × V)
  | [] => [(key, value)]
  | entry :: rest =>
    if key < entry.1 then (key, value) :: entry :: rest
    else if key = entry.1 then (key, value) :: rest
    else entry :: insertEntry key value rest

theorem mem_insertEntry {entry : K × V} (mem : entry ∈ insertEntry key value entries) :
    entry = (key, value) ∨ entry ∈ entries := by
  induction entries with
  | nil => exact Or.inl (by simpa [insertEntry] using mem)
  | cons first rest ih =>
    grind [insertEntry]

theorem insertEntry_sorted (sorted : entries.Pairwise fun left right => left.1 < right.1) :
    (insertEntry key value entries).Pairwise (fun left right => left.1 < right.1) := by
  induction entries with
  | nil => simp [insertEntry]
  | cons first rest ih =>
    obtain ⟨below, tail⟩ := List.pairwise_cons.mp sorted
    simp only [insertEntry]
    split
    · grind
    · split
      · grind [List.pairwise_cons]
      · rename_i notSmaller ne
        refine List.pairwise_cons.mpr ⟨?_, ih tail⟩
        intro entry mem
        rcases mem_insertEntry mem with rfl | mem
        · grind
        · exact below entry mem

def insert (key : K) (value : V) (map : BTreeMap K V) : BTreeMap K V :=
  ⟨insertEntry key value map.entries, insertEntry_sorted map.sorted⟩

def get (map : BTreeMap K V) (key : K) : Option V :=
  (map.entries.find? fun entry => entry.1 = key).map Prod.snd

def keys (map : BTreeMap K V) : List K := map.entries.map Prod.fst

def containsKey (map : BTreeMap K V) (key : K) : Bool := (map.get key).isSome

theorem entry_unique (map : BTreeMap K V) {left right : V}
    (first : (key, left) ∈ map.entries) (second : (key, right) ∈ map.entries) : left = right := by
  grind [List.getElem_of_mem, List.pairwise_iff_getElem, sorted]

theorem get_eq_some : map.get key = some value ↔ (key, value) ∈ map.entries := by
  simp only [get, Option.map_eq_some_iff]
  constructor
  · grind
  · intro mem
    cases search : map.entries.find? (fun entry => entry.1 = key) with
    | none => simpa using List.find?_eq_none.mp search _ mem
    | some entry =>
      grind [entry_unique]

theorem get_isSome : (map.get key).isSome ↔ key ∈ map.keys := by
  constructor
  · intro found
    obtain ⟨value, found⟩ := Option.isSome_iff_exists.mp found
    exact List.mem_map.mpr ⟨_, get_eq_some.mp found, rfl⟩
  · intro mem
    obtain ⟨⟨found, value⟩, entry, rfl⟩ := List.mem_map.mp mem
    exact Option.isSome_iff_exists.mpr ⟨value, get_eq_some.mpr entry⟩

def erase (key : K) (map : BTreeMap K V) : BTreeMap K V :=
  ⟨map.entries.filter fun entry => entry.1 ≠ key, map.sorted.filter _⟩

theorem mem_insertEntry_self (key : K) (value : V) (entries : List (K × V)) :
    (key, value) ∈ insertEntry key value entries := by
  induction entries with
  | nil => exact List.mem_singleton_self _
  | cons first rest ih =>
    grind [insertEntry]

variable {other : K} {found : V}

theorem get_insert (present : (map.insert key value).get other = some found) :
    (other = key ∧ found = value) ∨ (other ≠ key ∧ map.get other = some found) := by
  rcases eq_or_ne other key with rfl | ne
  · have inserted : (map.insert other value).get other = some value :=
      get_eq_some.mpr (mem_insertEntry_self other value map.entries)
    grind
  · rcases mem_insertEntry (get_eq_some.mp present) with same | mem
    · cases same
      exact absurd rfl ne
    · exact Or.inr ⟨ne, get_eq_some.mpr mem⟩

theorem get_erase (present : (map.erase key).get other = some found) : other ≠ key ∧ map.get other = some found := by
  obtain ⟨mem, ne⟩ := List.mem_filter.mp (get_eq_some.mp present)
  grind [get_eq_some]

theorem get_erase_eq {wanted : K} : (map.erase key).get wanted = if wanted = key then none else map.get wanted := by
  cases found : (map.erase key).get wanted with
  | some value =>
    obtain ⟨ne, present⟩ := get_erase found
    rw [if_neg ne, present]
  | none =>
    split
    · rfl
    · rename_i ne
      cases present : map.get wanted with
      | none => rfl
      | some value =>
        have mem : (wanted, value) ∈ (map.erase key).entries :=
          List.mem_filter.mpr ⟨get_eq_some.mp present, decide_eq_true ne⟩
        have kept := get_eq_some.mpr mem
        cases found.symm.trans kept

variable {index fuel high low : Nat}

theorem searchBetween_none (sorted : entries.Pairwise fun left right => left.1 < right.1)
    (enough : high - low ≤ fuel) (bound : high ≤ entries.length)
    (search : searchBetween (fun entry => cmp entry.1 key) entries fuel low high = none) (above : low ≤ index)
    (below : index < high) (value : V) : entries[index]? ≠ some (key, value) := by
  induction fuel generalizing low high with
  | zero => omega
  | succ fuel ih =>
    have inside : (low + high) / 2 < entries.length := by omega
    have ordered := List.pairwise_iff_getElem.mp sorted
    have running : low < high := by omega
    rw [searchBetween, if_pos running] at search
    dsimp only at search
    rw [List.getElem?_eq_getElem inside] at search
    dsimp only at search
    intro present
    obtain ⟨there, atIndex⟩ := List.getElem?_eq_some_iff.mp present
    cases compared : cmp entries[(low + high) / 2].1 key with
    | eq =>
      rw [compared] at search
      cases search
    | lt =>
      rw [compared] at search
      have middleBelow : entries[(low + high) / 2].1 < key := (cmp_eq_lt_iff _ _).mp compared
      by_cases left : index ≤ (low + high) / 2
      · rcases Nat.lt_or_eq_of_le left with left | rfl
        · have less := ordered index _ there inside left
          rw [atIndex] at less
          exact absurd less (not_lt.mpr middleBelow.le)
        · rw [atIndex] at middleBelow
          exact absurd middleBelow (lt_irrefl _)
      · exact ih (by omega) bound search (by omega) below present
    | gt =>
      rw [compared] at search
      have middleAbove : key < entries[(low + high) / 2].1 := (cmp_eq_gt_iff _ _).mp compared
      by_cases right : (low + high) / 2 ≤ index
      · rcases Nat.lt_or_eq_of_le right with right | rfl
        · have less := ordered _ index inside there right
          rw [atIndex] at less
          exact absurd less (not_lt.mpr middleAbove.le)
        · rw [atIndex] at middleAbove
          exact absurd middleAbove (lt_irrefl _)
      · exact ih (by omega) (by omega) search above (by omega) present

theorem searchBetween_some
    (search : searchBetween (fun entry => cmp entry.1 key) entries fuel low high = some index) :
    ∃ value, entries[index]? = some (key, value) := by
  induction fuel generalizing low high with
  | zero => cases search
  | succ fuel ih =>
    rw [searchBetween] at search
    by_cases running : low < high
    · rw [if_pos running] at search
      dsimp only at search
      cases present : entries[(low + high) / 2]? with
      | none =>
        rw [present] at search
        cases search
      | some item =>
        rw [present] at search
        dsimp only at search
        cases compared : cmp item.1 key with
        | eq =>
          rw [compared] at search
          cases search
          have same : item.1 = key := (cmp_eq_eq_iff _ _).mp compared
          exact ⟨item.2, by rw [present, ← same]⟩
        | lt | gt =>
          rw [compared] at search
          exact ih search
    · rw [if_neg running] at search
      cases search

theorem binarySearchBy_get (map : BTreeMap K V) (key : K) :
    ((binarySearchBy (fun entry => cmp entry.1 key) map.entries).bind
      (fun index => map.entries[index]?)).map Prod.snd = map.get key := by
  cases search : binarySearchBy (fun entry => cmp entry.1 key) map.entries with
  | none =>
    cases held : map.get key with
    | none => rfl
    | some value =>
      obtain ⟨index, inside, atIndex⟩ := List.getElem_of_mem (get_eq_some.mp held)
      refine absurd ?_ (searchBetween_none map.sorted (by simp) (Nat.le_refl _) search
        (Nat.zero_le index) inside value)
      rw [List.getElem?_eq_getElem inside, atIndex]
  | some index =>
    obtain ⟨value, present⟩ := searchBetween_some search
    have mem := List.mem_of_getElem? present
    simp [present, get_eq_some.mpr mem]

end BTreeMap

end Phantom.Lib
