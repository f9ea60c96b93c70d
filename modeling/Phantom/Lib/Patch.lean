import Mathlib.Data.Finset.Basic

namespace Phantom.Lib

variable {α : Type} [DecidableEq α]

def patched (base added removed : Finset α) : Finset α := (base ∪ added) \ removed

/-- A patch that adds only what is missing and removes only what is there. -/
structure Fits (base added removed : Finset α) : Prop where
  missing : ∀ item ∈ added, item ∉ base
  present : ∀ item ∈ removed, item ∈ base

/-- Takes each item out of the first set, or puts it into the second where it was not in the first. -/
def cancelOrInsert (items : List α) (sets : Finset α × Finset α) : Finset α × Finset α :=
  items.foldl (fun sets item =>
    if item ∈ sets.1 then (sets.1.erase item, sets.2) else (sets.1, insert item sets.2)) sets

theorem cancelOrInsert_eq (items : List α) (nodup : items.Nodup) (first second : Finset α) :
    cancelOrInsert items (first, second) = (first \ items.toFinset, second ∪ (items.toFinset \ first)) := by
  unfold cancelOrInsert
  induction items generalizing first second with
  | nil => simp
  | cons item items ih =>
    obtain ⟨fresh, nodup⟩ := List.nodup_cons.mp nodup
    rw [List.foldl_cons]
    by_cases mem : item ∈ first
    · simp only [mem, if_true]
      rw [ih nodup]
      have left : first.erase item \ items.toFinset = first \ (item :: items).toFinset := by
        grind [List.mem_toFinset]
      have right : items.toFinset \ first.erase item = (item :: items).toFinset \ first := by
        grind [List.mem_toFinset]
      rw [left, right]
    · simp only [mem, if_false]
      rw [ih nodup]
      have left : first \ items.toFinset = first \ (item :: items).toFinset := by
        grind [List.mem_toFinset]
      have right : insert item second ∪ items.toFinset \ first = second ∪ (item :: items).toFinset \ first := by
        grind [List.mem_toFinset]
      rw [left, right]

section Fitting

variable {base added removed upperAdded upperRemoved target : Finset α} {item : α}

theorem mem_patched : item ∈ patched base added removed ↔ (item ∈ base ∨ item ∈ added) ∧ item ∉ removed := by
  rw [patched, Finset.mem_sdiff, Finset.mem_union]

/-- A patch that fits and makes the target out of the base. -/
structure Leads (base added removed target : Finset α) : Prop extends Fits base added removed where
  reached : patched base added removed = target

theorem Leads.difference (base target : Finset α) : Leads base (target \ base) (base \ target) target where
  missing _ mem := (Finset.mem_sdiff.mp mem).2
  present _ mem := (Finset.mem_sdiff.mp mem).1
  reached := by
    grind [mem_patched]

theorem Leads.of_empty (target : Finset α) : Leads ∅ target ∅ target where
  missing _ _ := Finset.notMem_empty _
  present _ mem := absurd mem (Finset.notMem_empty _)
  reached := by
    simp [patched]

omit [DecidableEq α] in
theorem Fits.removed_empty (fits : Fits ∅ added removed) : removed = ∅ := by
  grind [Fits.present]

theorem Leads.added_subset (leads : Leads base added removed target) : added ⊆ target := by
  rw [← leads.reached]
  have fits := leads.toFits
  grind [mem_patched, Fits.missing, Fits.present]

theorem mem_mergedAdded : item ∈ (added \ upperRemoved) ∪ (upperAdded \ (removed ∪ (upperRemoved \ added))) ↔
      (item ∈ added ∧ item ∉ upperRemoved) ∨
      (item ∈ upperAdded ∧ item ∉ removed ∧ (item ∈ upperRemoved → item ∈ added)) := by
  grind

theorem mem_mergedRemoved : item ∈ (removed ∪ (upperRemoved \ added)) \ upperAdded ↔
      (item ∈ removed ∨ (item ∈ upperRemoved ∧ item ∉ added)) ∧ item ∉ upperAdded := by
  simp only [Finset.mem_union, Finset.mem_sdiff]

/-- Two patches that fit one after the other merge into one from the lower base. -/
theorem Fits.merge (lower : Fits base added removed)
    (upper : Leads (patched base added removed) upperAdded upperRemoved target) :
    Leads base ((added \ upperRemoved) ∪ (upperAdded \ (removed ∪ (upperRemoved \ added))))
      ((removed ∪ (upperRemoved \ added)) \ upperAdded) target where
  missing item mem := by
    rcases mem_mergedAdded.mp mem with ⟨added, _⟩ | ⟨added, kept, _⟩
    · exact lower.missing item added
    · intro based
      exact upper.missing item added (mem_patched.mpr ⟨Or.inl based, kept⟩)
  present item mem := by
    obtain ⟨taken | ⟨taken, notAdded⟩, _⟩ := mem_mergedRemoved.mp mem
    · exact lower.present item taken
    · exact (mem_patched.mp (upper.present item taken)).1.resolve_right notAdded
  reached := by
    rw [← upper.reached]
    have fits := upper.toFits
    grind [Fits.present, Fits.missing, mem_patched]

end Fitting

end Phantom.Lib
