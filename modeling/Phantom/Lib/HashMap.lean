import Mathlib.Data.Finmap

namespace Phantom.Lib

/-- A hash map as its entries, without the order in which they are iterated. -/
abbrev HashMap (K V : Type) := Finmap fun _ : K => V

namespace HashMap

variable {K V : Type} [DecidableEq K]
variable {entries : List (K × V)}

/-- `collect` into a map: a later entry overwrites an earlier one of the same key. -/
def collect (entries : List (K × V)) : HashMap K V :=
  entries.foldl (fun map entry => map.insert entry.1 entry.2) ∅

/-- Counts the items, as `*map.entry(item).or_default() += 1` for each of them does. -/
def tallyNext (counts : HashMap K Nat) (item : K) : HashMap K Nat :=
  counts.insert item ((counts.lookup item).getD 0 + 1)

theorem lookup_insert_eq (map : HashMap K V) (key other : K) (value : V) :
    (map.insert key value).lookup other = if other = key then some value else map.lookup other := by
  grind [Finmap.lookup_insert, Finmap.lookup_insert_of_ne]

theorem collect_append_singleton (entries : List (K × V)) (entry : K × V) :
    collect (entries ++ [entry]) = (collect entries).insert entry.1 entry.2 := by
  simp [collect]

variable {key : K} {value : V}

theorem mem_of_lookup_collect (found : (collect entries).lookup key = some value) : (key, value) ∈ entries := by
  induction entries using List.reverseRecOn with
  | nil => cases found
  | append_singleton entries entry ih =>
    grind [collect_append_singleton, lookup_insert_eq]

theorem mem_collect : key ∈ collect entries ↔ ∃ value, (key, value) ∈ entries := by
  induction entries using List.reverseRecOn with
  | nil => simp [collect, Finmap.notMem_empty]
  | append_singleton entries entry ih =>
    grind [collect_append_singleton, Finmap.mem_insert]

theorem lookup_collect (single : ∀ left right, (key, left) ∈ entries → (key, right) ∈ entries → left = right) :
    (collect entries).lookup key = some value ↔ (key, value) ∈ entries := by
  constructor
  · exact mem_of_lookup_collect
  · intro mem
    obtain ⟨found, held⟩ := Finmap.mem_iff.mp (mem_collect.mpr ⟨value, mem⟩)
    rw [held, single found value (mem_of_lookup_collect held) mem]

theorem collect_congr {left right : List (K × V)} (same : ∀ entry, entry ∈ left ↔ entry ∈ right)
    (single : ∀ key first second, (key, first) ∈ left → (key, second) ∈ left → first = second) :
    collect left = collect right := by
  refine Finmap.ext_lookup ?_
  intro key
  ext value
  grind [lookup_collect]

/-- The place of each item in a list, of a repeated item its last one. -/
def positions (items : List K) : HashMap K Nat := collect (items.mapIdx fun index item => (item, index))

variable {items : List K} {index : Nat} {item : K}

theorem positions_last (found : items[index]? = some item) :
    ∃ last, (positions items).lookup item = some last ∧ index ≤ last ∧ items[last]? = some item := by
  unfold positions
  induction items using List.reverseRecOn with
  | nil => cases found
  | append_singleton items other ih =>
    rw [List.mapIdx_concat, collect_append_singleton]
    grind [lookup_insert_eq]

theorem positions_of_nodup (nodup : items.Nodup) (found : items[index]? = some item) :
    (positions items).lookup item = some index := by
  obtain ⟨last, held, _, same⟩ := positions_last found
  have bound := (List.getElem?_eq_some_iff.mp found).1
  rw [held, (List.getElem?_inj bound nodup).mp (found.trans same.symm)]

theorem tally_lookup (items : List K) (item : K) : (items.foldl tallyNext ∅).lookup item =
      if items.count item = 0 then none else some (items.count item) := by
  induction items using List.reverseRecOn with
  | nil => rfl
  | append_singleton items last ih =>
    grind [lookup_insert_eq, tallyNext]

end HashMap

end Phantom.Lib
