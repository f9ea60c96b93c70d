import Phantom.Lib.Schedule
import Phantom.StateRes.RoomVersion

namespace Phantom.StateRes

open Phantom.Lib Phantom.Matrix

abbrev StateMap (α : Type) := HashMap TypeStateKey α

structure SeparateSchedule where
  stateSets : Nat → HashOrder TypeStateKey
  occurrences : HashOrder TypeStateKey
  occurrencesOf : TypeStateKey → HashOrder EventId

section Separate

variable (schedule : SeparateSchedule)

def countOccurrence (occurrences : StateMap (HashMap EventId Nat)) (entry : TypeStateKey × EventId) :
    StateMap (HashMap EventId Nat) :=
  occurrences.insert entry.1 (HashMap.tallyNext ((occurrences.lookup entry.1).getD ∅) entry.2)

variable (stateSets : List (StateMap EventId))

def countOccurrences : StateMap (HashMap EventId Nat) :=
  (stateSets.mapIdx fun index set => (schedule.stateSets index).iterate set).flatten.foldl countOccurrence ∅

def countedEvents : List ((TypeStateKey × EventId) × Nat) :=
  (schedule.occurrences.iterate (countOccurrences schedule stateSets)).flatMap fun entry =>
    ((schedule.occurrencesOf entry.1).iterate entry.2).map fun count => ((entry.1, count.1), count.2)

def pushConflicted (conflicted : StateMap (List EventId)) (entry : TypeStateKey × EventId) :
    StateMap (List EventId) :=
  conflicted.insert entry.1 ((conflicted.lookup entry.1).getD [] ++ [entry.2])

def separate : StateMap EventId × StateMap (List EventId) :=
  let counted := countedEvents schedule stateSets
  let unconflicted := counted.filter fun item => item.2 = stateSets.length
  let conflicted := counted.filter (fun item => item.2 ≠ stateSets.length)
  (HashMap.collect (unconflicted.map Prod.fst), (conflicted.map Prod.fst).foldl pushConflicted ∅)

end Separate

structure ChainSchedule where
  chains : Nat → HashOrder EventId
  counts : HashOrder EventId

def getAuthChainDiff (schedule : ChainSchedule) (authChainSets : List (Finset EventId)) : List EventId :=
  let ids := (authChainSets.mapIdx fun index set => (schedule.chains index).list set).flatten
  ((schedule.counts.iterate (ids.foldl HashMap.tallyNext ∅)).filter
    (fun entry => entry.2 < authChainSets.length)).map Prod.fst

section

variable (stateSets : List (StateMap EventId))

def Agreed (key : TypeStateKey) (id : EventId) : Prop :=
  (∃ set ∈ stateSets, set.lookup key = some id) ∧ ∀ set ∈ stateSets, set.lookup key = some id

def ConflictedAt (key : TypeStateKey) (id : EventId) : Prop :=
  (∃ set ∈ stateSets, set.lookup key = some id) ∧ ∃ set ∈ stateSets, set.lookup key ≠ some id

def Conflicted (id : EventId) : Prop :=
  ∃ key, ConflictedAt stateSets key id

end

def InAuthChainDiff (authChainSets : List (Finset EventId)) (id : EventId) : Prop :=
  (∃ set ∈ authChainSets, id ∈ set) ∧ ∃ set ∈ authChainSets, id ∉ set

variable {α : Type} (sets : List α)

theorem count_flatten_mapIdx {β : Type} [BEq β] [LawfulBEq β] (list : Nat → α → List β) (item : β) (holds : α → Bool)
    (nodup : ∀ index set, (list index set).Nodup) (mem : ∀ index set, item ∈ list index set ↔ holds set = true) :
    (sets.mapIdx list).flatten.count item = sets.countP holds := by
  induction sets generalizing list with
  | nil => rfl
  | cons set sets ih =>
    grind

theorem countP_pos_ne_length (holds : α → Bool) : (0 < sets.countP holds ∧ sets.countP holds ≠ sets.length) ↔
      (∃ set ∈ sets, holds set = true) ∧ ∃ set ∈ sets, ¬ holds set = true := by
  simp

section Spec

variable {schedule : SeparateSchedule} {stateSets : List (StateMap EventId)} {key : TypeStateKey} {id : EventId}

variable (entries : List (TypeStateKey × EventId))

theorem countOccurrence_lookup (key : TypeStateKey) : ((entries.foldl countOccurrence ∅).lookup key).getD ∅ =
      ((entries.filter fun entry => entry.1 = key).map Prod.snd).foldl HashMap.tallyNext ∅ := by
  induction entries using List.reverseRecOn with
  | nil => rfl
  | append_singleton entries entry ih =>
    grind [HashMap.lookup_insert_eq, countOccurrence]

theorem countOccurrences_lookup (schedule : SeparateSchedule) (stateSets : List (StateMap EventId))
    (key : TypeStateKey) (id : EventId) : (((countOccurrences schedule stateSets).lookup key).getD ∅).lookup id =
      if stateSets.countP (fun set => set.lookup key = some id) = 0 then none
      else some (stateSets.countP fun set => set.lookup key = some id) := by
  unfold countOccurrences
  rw [countOccurrence_lookup, HashMap.tally_lookup]
  have pairs : ∀ entries : List (TypeStateKey × EventId),
      ((entries.filter fun entry => entry.1 = key).map Prod.snd).count id = entries.count (key, id) := by
    intro entries
    induction entries with
    | nil => rfl
    | cons entry entries ih =>
      grind
  rw [pairs, count_flatten_mapIdx]
  · intro index set
    exact HashOrder.nodup_iterate _ _
  · intro index set
    simp

theorem mem_countedEvents {count : Nat} : ((key, id), count) ∈ countedEvents schedule stateSets ↔
      0 < count ∧ count = stateSets.countP (fun set => set.lookup key = some id) := by
  have looked := countOccurrences_lookup schedule stateSets key id
  constructor
  · intro mem
    obtain ⟨⟨other, counts⟩, held, mem⟩ := List.mem_flatMap.mp mem
    grind [HashOrder.mem_iterate]
  · intro counted
    rw [if_neg (by omega), ← counted.2] at looked
    cases held : (countOccurrences schedule stateSets).lookup key with
    | none => rw [held] at looked; cases looked
    | some counts =>
      rw [held, Option.getD_some] at looked
      refine List.mem_flatMap.mpr ⟨(key, counts), ?_, List.mem_map.mpr ⟨(id, count), ?_, rfl⟩⟩
      · exact (HashOrder.mem_iterate _).mpr held
      · exact (HashOrder.mem_iterate _).mpr looked

theorem mem_counted_filter {p : Nat → Bool} : (key, id) ∈ ((countedEvents schedule stateSets).filter
      (fun item => p item.2)).map Prod.fst ↔
    0 < stateSets.countP (fun set => set.lookup key = some id) ∧
      p (stateSets.countP fun set => set.lookup key = some id) := by
  constructor
  · intro mem
    obtain ⟨⟨entry, count⟩, mem, same⟩ := List.mem_map.mp mem
    cases same
    obtain ⟨mem, passes⟩ := List.mem_filter.mp mem
    obtain ⟨positive, rfl⟩ := mem_countedEvents.mp mem
    exact ⟨positive, passes⟩
  · rintro ⟨positive, passes⟩
    exact List.mem_map.mpr ⟨(_, _), List.mem_filter.mpr ⟨mem_countedEvents.mpr ⟨positive, rfl⟩, passes⟩, rfl⟩

theorem mem_unconflicted : (key, id) ∈ ((countedEvents schedule stateSets).filter
      (fun item => item.2 = stateSets.length)).map Prod.fst ↔ Agreed stateSets key id := by
  rw [mem_counted_filter (p := fun count => count = stateSets.length)]
  simp [Agreed]

theorem mem_conflicted : (key, id) ∈ ((countedEvents schedule stateSets).filter
      (fun item => item.2 ≠ stateSets.length)).map Prod.fst ↔ ConflictedAt stateSets key id := by
  rw [mem_counted_filter (p := fun count => count ≠ stateSets.length)]
  simp [ConflictedAt]

theorem separate_clean : (separate schedule stateSets).1.lookup key = some id ↔ Agreed stateSets key id := by
  unfold separate
  rw [HashMap.lookup_collect, mem_unconflicted]
  intro left right leftMember rightMember
  obtain ⟨⟨set, mem, _⟩, leftAgreed⟩ := mem_unconflicted.mp leftMember
  have rightAgreed := (mem_unconflicted.mp rightMember).2
  grind

theorem mem_pushConflicted : id ∈ ((entries.foldl pushConflicted ∅).lookup key).getD [] ↔ (key, id) ∈ entries := by
  induction entries using List.reverseRecOn with
  | nil => simp
  | append_singleton entries entry ih =>
    grind [HashMap.lookup_insert_eq, pushConflicted]

theorem separate_conflicting (schedule : SeparateSchedule) :
    id ∈ ((separate schedule stateSets).2.lookup key).getD [] ↔ ConflictedAt stateSets key id := by
  unfold separate
  rw [mem_pushConflicted, mem_conflicted]

theorem pushConflicted_nonempty (held : (entries.foldl pushConflicted ∅).lookup key = some []) : False := by
  induction entries using List.reverseRecOn with
  | nil => cases held
  | append_singleton entries entry ih =>
    rw [List.foldl_append, List.foldl_cons, List.foldl_nil, pushConflicted, HashMap.lookup_insert_eq] at held
    split at held
    · simp at held
    · exact ih held

theorem separate_conflicting_empty :
    (separate schedule stateSets).2.keys = ∅ ↔ ∀ key id, ¬ ConflictedAt stateSets key id := by
  constructor
  · intro empty key id conflicted
    have mem := (separate_conflicting schedule).mpr conflicted
    cases held : (separate schedule stateSets).2.lookup key with
    | none => rw [held] at mem; cases mem
    | some ids =>
      have present := Finmap.mem_keys.mpr (Finmap.mem_of_lookup_eq_some held)
      rw [empty] at present
      cases present
  · intro none
    rw [Finset.eq_empty_iff_forall_notMem]
    intro key present
    obtain ⟨ids, held⟩ := Finmap.mem_iff.mp (Finmap.mem_keys.mp present)
    cases ids with
    | nil => exact pushConflicted_nonempty _ held
    | cons id ids =>
      exact none key id ((separate_conflicting schedule).mp (by rw [held]; simp))

theorem mem_getAuthChainDiff {schedule : ChainSchedule} {authChainSets : List (Finset EventId)} :
    id ∈ getAuthChainDiff schedule authChainSets ↔ InAuthChainDiff authChainSets id := by
  have counted := count_flatten_mapIdx authChainSets (fun index set => (schedule.chains index).list set)
    id (fun set => id ∈ set) (fun index set => HashOrder.nodup_list _ _) fun index set => by simp
  have split := countP_pos_ne_length authChainSets fun set => id ∈ set
  have looked := HashMap.tally_lookup
    (authChainSets.mapIdx fun index set => (schedule.chains index).list set).flatten id
  simp only [getAuthChainDiff, List.mem_map, List.mem_filter, Prod.exists, HashOrder.mem_iterate,
    exists_and_right, exists_eq_right, decide_eq_true_eq]
  grind [InAuthChainDiff]

end Spec

end Phantom.StateRes
