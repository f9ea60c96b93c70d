import Mathlib.Data.List.Induction
import Phantom.Lib.Json

namespace Phantom.Lib

section LastSome

variable {α β : Type} {f : α → Option β} {items others : List α}

/-- What the last item gives that gives anything. -/
def lastSome (f : α → Option β) (items : List α) : Option β :=
  items.foldl (fun last item => (f item).or last) none

/-- `Value::get`: an object has one member of a name, the last one that was written. -/
def Json.member (name : String) : Json → Option Json
  | .object members => lastSome (fun entry => if entry.1 = name then some entry.2 else none) members
  | _ => none

theorem foldl_or_eq (found : Option β) :
    items.foldl (fun last item => (f item).or last) found = (lastSome f items).or found := by
  induction items using List.reverseRecOn with
  | nil => rfl
  | append_singleton items item ih =>
    grind [lastSome]

theorem lastSome_append : lastSome f (items ++ others) = (lastSome f others).or (lastSome f items) := by
  rw [lastSome, List.foldl_append, foldl_or_eq, ← lastSome]

theorem lastSome_cons {item : α} : lastSome f (item :: items) = (lastSome f items).or (f item) := by
  rw [lastSome, List.foldl_cons, foldl_or_eq, Option.or_none]

theorem lastSome_concat {item : α} : lastSome f (items ++ [item]) = (f item).or (lastSome f items) := by
  rw [lastSome_append, lastSome_cons]
  rfl

theorem lastSome_isSome : (lastSome f items).isSome ↔ ∃ item ∈ items, (f item).isSome := by
  induction items with
  | nil => simp [lastSome]
  | cons item items ih =>
    grind [lastSome_cons]

theorem lastSome_eq_none : lastSome f items = none ↔ ∀ item ∈ items, f item = none := by
  grind [Option.not_isSome_iff_eq_none, lastSome_isSome]

theorem exists_of_lastSome {value : β} (found : lastSome f items = some value) : ∃ item ∈ items, f item = some value := by
  induction items with
  | nil => cases found
  | cons item items ih =>
    grind [lastSome_cons, Option.or_eq_some_iff]

theorem exists_last (f : α → Option β) (items : List α) : (∀ item ∈ items, f item = none) ∨
      ∃ before last after value, items = before ++ last :: after ∧ f last = some value ∧ ∀ item ∈ after,
      f item = none := by
  induction items with
  | nil => exact Or.inl nofun
  | cons item items ih =>
    rcases ih with nothing | ⟨before, last, after, value, rfl, gives, rest⟩
    · cases gives : f item with
      | none => grind
      | some value => exact Or.inr ⟨[], item, items, value, rfl, gives, nothing⟩
    · grind

end LastSome

namespace BTreeMap

variable {K V : Type} [LinearOrder K] {map other : BTreeMap K V} {key wanted : K} {value : V}
variable {entries : List (K × V)}

theorem mem_insertEntry_of_ne {entry : K × V} (mem : entry ∈ entries)
    (ne : entry.1 ≠ key) : entry ∈ insertEntry key value entries := by
  induction entries with
  | nil => cases mem
  | cons first rest ih =>
    grind [insertEntry]

theorem get_insert_eq : (map.insert key value).get wanted = if wanted = key then some value else map.get wanted := by
  split
  · next same =>
    rw [same]
    exact get_eq_some.mpr (mem_insertEntry_self key value map.entries)
  · next ne =>
    apply Option.ext
    intro found
    constructor
    · grind [get_insert]
    · intro held
      exact get_eq_some.mpr (mem_insertEntry_of_ne (get_eq_some.mp held) ne)

/-- `extend`: the entries of the other map, each in place of the one with its key. -/
def extend (map other : BTreeMap K V) : BTreeMap K V :=
  other.entries.foldl (fun map entry => map.insert entry.1 entry.2) map

theorem get_insertAll (entries : List (K × V)) :
    (entries.foldl (fun map entry => map.insert entry.1 entry.2) map).get wanted =
      (lastSome (fun entry => if entry.1 = wanted then some entry.2 else none) entries).or (map.get wanted) := by
  induction entries generalizing map with
  | nil => rfl
  | cons entry entries ih =>
    rw [List.foldl_cons, ih, get_insert_eq, lastSome_cons, Option.or_assoc]
    by_cases same : entry.1 = wanted
    · rw [if_pos same.symm, if_pos same, Option.some_or]
    · rw [if_neg (Ne.symm same), if_neg same, Option.none_or]

theorem lastSome_entries (listed : entries ⊆ map.entries) :
    lastSome (fun entry => if entry.1 = wanted then some entry.2 else none) entries = some value ↔
    (wanted, value) ∈ entries := by
  have of_last : ∀ found, lastSome (fun entry => if entry.1 = wanted then some entry.2 else none) entries = some found →
      (wanted, found) ∈ entries := by
    intro found last
    obtain ⟨entry, mem, given⟩ := exists_of_lastSome last
    rw [Option.ite_none_right_eq_some] at given
    obtain ⟨rfl, same⟩ := given
    cases same
    exact mem
  constructor
  · exact of_last value
  · intro mem
    have given : (lastSome (fun entry => if entry.1 = wanted then some entry.2 else none) entries).isSome :=
      lastSome_isSome.mpr ⟨_, mem, by rw [if_pos rfl]; rfl⟩
    obtain ⟨found, last⟩ := Option.isSome_iff_exists.mp given
    rw [last, map.entry_unique (listed (of_last found last)) (listed mem)]

theorem get_insertAll_empty (listed : entries ⊆ map.entries) :
    (entries.foldl (fun map entry => map.insert entry.1 entry.2) empty).get wanted = some value ↔
    (wanted, value) ∈ entries := by
  grind [get_insertAll, lastSome_entries, get, empty]

theorem get_eraseAll (entries : List (K × V)) : (entries.foldl (fun map entry => map.erase entry.1) map).get wanted =
      if wanted ∈ entries.map Prod.fst then none else map.get wanted := by
  induction entries generalizing map with
  | nil => rfl
  | cons entry entries ih =>
    rw [List.foldl_cons, ih, get_erase_eq, List.map_cons]
    by_cases later : wanted ∈ entries.map Prod.fst
    · rw [if_pos later, if_pos (List.mem_cons_of_mem _ later)]
    · by_cases same : wanted = entry.1
      · rw [if_neg later, if_pos same, if_pos (List.mem_cons.mpr (Or.inl same))]
      · rw [if_neg later, if_neg same, if_neg]
        rw [List.mem_cons]
        rintro (here | there)
        · exact same here
        · exact later there

theorem get_extend : (map.extend other).get wanted = (other.get wanted).or (map.get wanted) := by
  rw [extend, get_insertAll]
  congr 1
  apply Option.ext
  grind [lastSome_entries, get_eq_some]

end BTreeMap

end Phantom.Lib
