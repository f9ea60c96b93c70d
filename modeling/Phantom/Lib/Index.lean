import Mathlib.Logic.Function.Basic

namespace Phantom.Lib

/-- An index and the table it points into: a key points to a row exactly when the row is owned by it. -/
def Indexed {κ ι : Type} (index : κ → Option ι) (owner : ι → Option κ) : Prop :=
  ∀ key row, index key = some row ↔ owner row = some key

namespace Indexed

variable {κ ι : Type} {index : κ → Option ι} {owner : ι → Option κ} {key : κ} {row : ι}

theorem empty : Indexed (fun _ : κ => (none : Option ι)) (fun _ => none) := by
  intro key row
  simp

variable [DecidableEq ι]

theorem unowned (indexed : Indexed index owner) (before : owner row = none) :
    Indexed index (Function.update owner row none) := by
  grind [Function.update_eq_self]

variable [DecidableEq κ]

theorem link (indexed : Indexed index owner) (pointer : ∀ other, index key = some other → other = row)
    (owned : ∀ other, owner row = some other → other = key) :
    Indexed (Function.update index key (some row)) (Function.update owner row (some key)) := by
  intro key' row'
  by_cases sameKey : key' = key <;> by_cases sameRow : row' = row
  · subst sameKey sameRow
    simp
  · subst sameKey
    rw [Function.update_self, Function.update_of_ne sameRow]
    constructor
    · rintro ⟨⟩
      exact absurd rfl sameRow
    · intro owns
      exact absurd (pointer row' ((indexed _ _).mpr owns)) sameRow
  · subst sameRow
    rw [Function.update_self, Function.update_of_ne sameKey]
    constructor
    · intro points
      exact absurd (owned key' ((indexed _ _).mp points)) sameKey
    · rintro ⟨⟩
      exact absurd rfl sameKey
  · rw [Function.update_of_ne sameKey, Function.update_of_ne sameRow]
    exact indexed key' row'

theorem unlink (indexed : Indexed index owner) (owned : owner row = some key) :
    Indexed (Function.update index key none) (Function.update owner row none) := by
  have points := (indexed key row).mpr owned
  intro key' row'
  by_cases sameKey : key' = key <;> by_cases sameRow : row' = row
  · subst sameKey sameRow
    simp
  · subst sameKey
    rw [Function.update_self, Function.update_of_ne sameRow]
    constructor
    · nofun
    · intro owns
      have both := (indexed _ _).mpr owns
      grind
  · subst sameRow
    rw [Function.update_self, Function.update_of_ne sameKey]
    constructor
    · intro points'
      have both := (indexed _ _).mp points'
      grind
    · nofun
  · rw [Function.update_of_ne sameKey, Function.update_of_ne sameRow]
    exact indexed key' row'

theorem clear (indexed : Indexed index owner) (key : κ) :
    Indexed (Function.update index key none) (fun row => if index key = some row then none else owner row) := by
  cases points : index key with
  | none =>
    grind [Function.update_eq_self]
  | some row =>
    have unlinked := indexed.unlink ((indexed key row).mp points)
    have same : Function.update owner row none = fun other => if some row = some other then none else owner other := by
      grind
    rwa [same] at unlinked

end Indexed

/-- Several indexes into one table: a row is owned by a key exactly when one of the indexes leads from the key to the row,
    and no two indexes lead to one row. -/
structure Covered {κ ι β : Type} (owner : ι → Option κ) (index : β → κ → Option ι) : Prop where
  covers : ∀ key row, owner row = some key ↔ ∃ kind, index kind key = some row
  apart : ∀ kind other key key' row, index kind key = some row → index other key' = some row → kind = other

namespace Covered

variable {κ ι β : Type} {owner after : ι → Option κ} {index indexed : β → κ → Option ι} {kind : β} {key : κ}

theorem unique (covered : Covered owner index) {other : β} {key' : κ} {row : ι} (leads : index kind key = some row)
    (leadsToo : index other key' = some row) : other = kind ∧ key' = key := by
  have owned := (covered.covers key row).mpr ⟨kind, leads⟩
  have ownedToo := (covered.covers key' row).mpr ⟨other, leadsToo⟩
  exact ⟨covered.apart other kind key' key row leadsToo leads, Option.some.inj (ownedToo.symm.trans owned)⟩

variable [DecidableEq ι] [DecidableEq κ] [DecidableEq β]

theorem assign (covered : Covered owner index) (kind : β) (key : κ) (row : Option ι)
    (fresh : ∀ new, row = some new → owner new = none)
    (after_eq : ∀ item, after item =
      if row = some item then some key else if index kind key = some item then none else owner item)
    (indexed_eq : ∀ other key', indexed other key' = if other = kind ∧ key' = key then row else index other key') :
    Covered after indexed := by
  have leads : ∀ other key' item, indexed other key' = some item →
      (other = kind ∧ key' = key ∧ row = some item) ∨ (index other key' = some item ∧ row ≠ some item ∧
      index kind key ≠ some item) := by
    intro other key' item found
    rw [indexed_eq] at found
    split at found
    · grind
    · rename_i ne
      refine Or.inr ⟨found, ?_, ?_⟩
      · intro new
        have owned := (covered.covers key' item).mpr ⟨other, found⟩
        cases (fresh item new).symm.trans owned
      · intro old
        exact ne (covered.unique old found)
  constructor
  · intro key' item
    rw [after_eq]
    constructor
    · intro owned
      split at owned
      · rename_i new
        cases owned
        exact ⟨kind, by rw [indexed_eq, if_pos ⟨rfl, rfl⟩, new]⟩
      · split at owned
        · cases owned
        · rename_i old
          obtain ⟨other, found⟩ := (covered.covers key' item).mp owned
          grind
    · rintro ⟨other, found⟩
      rcases leads other key' item found with ⟨_, rfl, new⟩ | ⟨before, new, old⟩
      · rw [if_pos new]
      · rw [if_neg new, if_neg old]
        exact (covered.covers key' item).mpr ⟨other, before⟩
  · intro left right leftKey rightKey item foundLeft foundRight
    rcases leads left leftKey item foundLeft with ⟨rfl, _, new⟩ | ⟨before, new, _⟩
    · grind
    · rcases leads right rightKey item foundRight with ⟨_, _, old⟩ | ⟨beforeToo, _, _⟩
      · exact absurd old new
      · exact covered.apart left right leftKey rightKey item before beforeToo

end Covered

end Phantom.Lib
