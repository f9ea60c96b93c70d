import Phantom.StateRes.Mainline
import Phantom.StateRes.PowerSortSettles

namespace Phantom.StateRes

open Phantom.Lib Phantom.Matrix

section Walks

variable {store : EventStore}
variable {id : EventId} {failure : Failure Error} {mainline : HashMap EventId Nat} {entry : EventId × Event}

theorem fetchOrNotFound_failure (failed : fetchOrNotFound store id = .error failure) :
    store.fetch id = none ∧ ∃ error, failure = .err error := by
  refine ⟨?_, _, Outcome.ofOption_failure failed⟩
  cases found : store.fetch id with
  | none => rfl
  | some event =>
    rw [fetchOrNotFound, found] at failed
    cases failed

variable {ids : List EventId}

theorem powerLevelsAmong_failure (failed : powerLevelsAmong store ids = .error failure) :
    (∃ id ∈ ids, store.fetch id = none) ∧ ∃ error, failure = .err error := by
  induction ids with
  | nil => cases failed
  | cons id ids ih =>
    rcases Outcome.bind_eq_error.mp failed with failed | ⟨event, _, failed⟩
    · obtain ⟨missing, own⟩ := fetchOrNotFound_failure failed
      exact ⟨⟨id, List.mem_cons_self .., missing⟩, own⟩
    · split at failed
      · cases failed
      · grind

variable {event : Event}

theorem powerLevelsAmong_ok (found : powerLevelsAmong store ids = .ok (some (id, event))) :
    id ∈ ids ∧ store.fetch id = some event := by
  induction ids with
  | nil => cases found
  | cons other ids ih =>
    obtain ⟨fetched, stored, found⟩ := Outcome.bind_eq_ok.mp found
    split at found
    · cases found
      exact ⟨List.mem_cons_self .., Outcome.ofOption_eq_ok.mp stored⟩
    · grind

theorem mainlineStep_failure {s : Option EventId × List EventId}
    (failed : mainlineStep store s = .error failure) : (∃ id, s.1 = some id ∧
      (store.fetch id = none ∨ ∃ auth ∈ store.authEvents id, store.fetch auth = none)) ∧
    ∃ error, failure = .err error := by
  unfold mainlineStep at failed
  split at failed
  · cases failed
  · rename_i id shape
    rcases Outcome.bind_eq_error.mp failed with failed | ⟨event, stored, failed⟩
    · obtain ⟨missing, own⟩ := fetchOrNotFound_failure failed
      exact ⟨⟨id, shape, Or.inl missing⟩, own⟩
    · rcases Outcome.bind_eq_error.mp failed with failed | ⟨_, _, failed⟩
      · obtain ⟨⟨auth, mem, missing⟩, own⟩ := powerLevelsAmong_failure failed
        rw [← EventStore.authEvents_of_fetch (Outcome.ofOption_eq_ok.mp stored)] at mem
        grind
      · cases failed

theorem depthStep_failure {s : Option Event} (failed : depthStep store mainline s = .error failure) :
    ∃ error, failure = .err error := by
  unfold depthStep at failed
  split at failed
  · cases failed
  · split at failed
    · cases failed
    · rcases Outcome.bind_eq_error.mp failed with failed | ⟨_, _, failed⟩
      · exact (powerLevelsAmong_failure failed).2
      · cases failed

section

variable (wellFounded : WellFounded store.AuthOf)
include wellFounded

theorem mainline_finishes (resolvedPowerLevel : Option EventId) :
    ∃ bound, (loop (mainlineStep store) bound (resolvedPowerLevel, [])).Finishes := by
  obtain ⟨size, shrinks⟩ := EventStore.exists_size wellFounded
  refine ⟨_, loop_finishes (fun _ => True) (fun s => (s.1.map fun id => size id + 1).getD 0) ?_ ?_
    trivial (Nat.lt_succ_self _)⟩
  · intro s _ failed
    grind [mainlineStep_failure]
  · intro s next _ ran
    refine ⟨trivial, ?_⟩
    unfold mainlineStep at ran
    split at ran
    · cases ran
    · rename_i id shape
      obtain ⟨event, stored, ran⟩ := Outcome.bind_eq_ok.mp ran
      obtain ⟨found, among, made⟩ := Outcome.bind_eq_ok.mp ran
      cases made
      rw [shape]
      cases found with
      | none => simp
      | some entry =>
        have mem := (powerLevelsAmong_ok among).1
        rw [← EventStore.authEvents_of_fetch (Outcome.ofOption_eq_ok.mp stored)] at mem
        have smaller := EventStore.size_lt shrinks mem
        simp only [Option.map_some, Option.getD_some]
        omega

variable (mainline : HashMap EventId Nat)

theorem getMainlineDepth_finishes (stored : store.fetch event.eventId = some event) :
    ∃ bound, (getMainlineDepth store bound mainline event).Finishes := by
  obtain ⟨size, shrinks⟩ := EventStore.exists_size wellFounded
  refine ⟨_, loop_finishes (fun s => ∀ event, s = some event → store.fetch event.eventId = some event)
    (fun s => (s.map fun event => size event.eventId + 1).getD 0) ?_ ?_ ?_ (Nat.lt_succ_self _)⟩
  · intro s _ failed
    grind [depthStep_failure]
  · intro s next kept ran
    unfold depthStep at ran
    split at ran
    · cases ran
    · rename_i current
      split at ran
      · cases ran
      · obtain ⟨found, among, made⟩ := Outcome.bind_eq_ok.mp ran
        cases made
        cases found with
        | none =>
          grind
        | some entry =>
          obtain ⟨mem, entryStored⟩ := powerLevelsAmong_ok among
          have own := store.fetch_id entryStored
          rw [← EventStore.authEvents_of_fetch (kept current rfl)] at mem
          have smaller := EventStore.size_lt shrinks mem
          grind
  · intro other same
    cases same
    exact stored

theorem mainlineRank_settles (stored : store.fetch entry.1 = some entry.2) :
    ∃ bound rank, ∀ fuel, mainlineRank store fuel mainline entry = .ok rank ∨
      (mainlineRank store fuel mainline entry = .error .unfinished ∧ fuel < bound) := by
  have own : store.fetch entry.2.eventId = some entry.2 := by rw [store.fetch_id stored, stored]
  obtain ⟨bound, finished⟩ := getMainlineDepth_finishes wellFounded mainline own
  have ranked : ∃ rank, mainlineRank store bound mainline entry = .ok rank := by
    unfold mainlineRank
    cases depth : getMainlineDepth store bound mainline entry.2 with
    | ok value => exact ⟨_, rfl⟩
    | error failure =>
      rcases loop_failure (fun _ => True) (fun failure => ∃ error, failure = .err error)
        (fun _ _ _ _ => trivial) (fun _ _ _ failed => depthStep_failure failed) depth trivial with
        early | ⟨error, own⟩
      · exact absurd (early ▸ depth) finished
      · exact own ▸ ⟨_, rfl⟩
  obtain ⟨rank, ranked⟩ := ranked
  refine ⟨bound, rank, ?_⟩
  intro fuel
  rcases loop_settles finished fuel with same | ⟨pending, early⟩
  · grind [mainlineRank, getMainlineDepth]
  · refine Or.inr ⟨?_, early⟩
    rw [mainlineRank, getMainlineDepth, pending]
    rfl

theorem mainlineRanks_settle (entries : List (EventId × Event))
    (stored : ∀ entry ∈ entries, store.fetch entry.1 = some entry.2) :
    ∃ bound, ∃ rank : EventId × Event → Option (EventId × MainlineRank), ∀ fuel, ∀ entry ∈ entries,
      mainlineRank store fuel mainline entry = .ok (rank entry) ∨
      (mainlineRank store fuel mainline entry = .error .unfinished ∧ fuel < bound) := by
  have each : ∀ entry, store.fetch entry.1 = some entry.2 → ∃ bound rank, ∀ fuel,
      mainlineRank store fuel mainline entry = .ok rank ∨
      (mainlineRank store fuel mainline entry = .error .unfinished ∧ fuel < bound) :=
    fun _ found => mainlineRank_settles wellFounded mainline found
  choose! bounds rank settled using each
  refine ⟨(entries.map bounds).sum, rank, ?_⟩
  intro fuel entry mem
  refine (settled entry (stored entry mem) fuel).imp_right (And.imp_right ?_)
  intro early
  exact lt_of_lt_of_le early (List.single_le_sum (fun _ _ => Nat.zero_le _) _ (List.mem_map_of_mem mem))

end

theorem mainlineRank_ok {fuel : Nat} {rank : MainlineRank}
    (ranked : mainlineRank store fuel mainline entry = .ok (some (id, rank))) :
    entry.1 = id ∧ (ofLex (ofLex rank).2).2 = id := by
  obtain ⟨depth, _, made⟩ := Outcome.bind_eq_ok.mp ranked
  obtain ⟨_, _, same⟩ := Option.map_eq_some_iff.mp (Except.ok.inj made)
  cases same
  exact ⟨rfl, rfl⟩

theorem rankOf_injective {orderMap : HashMap EventId MainlineRank}
    (own : ∀ id rank, orderMap.lookup id = some rank → (ofLex (ofLex rank).2).2 = id) :
    Function.Injective (rankOf orderMap) := by
  have named : ∀ id, (ofLex (ofLex (rankOf orderMap id)).2).2 = id := by
    intro id
    unfold rankOf
    cases found : orderMap.lookup id with
    | none => rfl
    | some rank => exact own id rank found
  intro left right same
  rw [← named left, same, named right]

end Walks

section Ranked

variable {store : EventStore}

theorem stored_of_foundEntries {ids : List EventId} {entry : EventId × Event}
    (mem : entry ∈ foundEntries store ids) : store.fetch entry.1 = some entry.2 := by
  obtain ⟨id, _, found⟩ := List.mem_filterMap.mp mem
  grind [Option.map_eq_some_iff]

variable {ι : Type}

theorem rankedSort_settles (wellFounded : WellFounded store.AuthOf) (mainline : HashMap EventId Nat)
    (keys : ι → HashOrder EventId) (fuel width : ι → Nat) (ids : List EventId) (entries : ι → List (EventId × Event))
    (perm : ∀ index, (entries index).Perm (foundEntries store ids)) : ∃ result, Settles fuel width SameJson
      (fun index => rankedSort store (keys index) (fuel index) mainline (entries index)) result := by
  obtain ⟨bound, rank, ranked⟩ := mainlineRanks_settle wellFounded mainline (foundEntries store ids)
    (fun _ mem => stored_of_foundEntries mem)
  have shape : ∀ entry ∈ foundEntries store ids, ∀ id value, rank entry = some (id, value) →
      entry.1 = id ∧ (ofLex (ofLex value).2).2 = id := by
    intro entry mem id value same
    rcases ranked bound entry mem with returned | ⟨_, impossible⟩
    · exact mainlineRank_ok (same ▸ returned)
    · omega
  set orderMap := HashMap.collect ((foundEntries store ids).map rank).reduceOption with orderMap_def
  have listed : ∀ id value, (id, value) ∈ ((foundEntries store ids).map rank).reduceOption →
      ∃ entry ∈ foundEntries store ids, rank entry = some (id, value) := by
    grind [List.reduceOption_mem_iff]
  have injective : Function.Injective (rankOf orderMap) := by
    refine rankOf_injective ?_
    intro id value found
    obtain ⟨entry, mem, same⟩ := listed id value (HashMap.mem_of_lookup_collect found)
    exact (shape entry mem id value same).2
  have single : ∀ id first second, (id, first) ∈ ((foundEntries store ids).map rank).reduceOption →
      (id, second) ∈ ((foundEntries store ids).map rank).reduceOption → first = second := by
    intro id first second firstListed secondListed
    obtain ⟨left, leftMember, leftRank⟩ := listed id first firstListed
    obtain ⟨right, rightMember, rightRank⟩ := listed id second secondListed
    have leftStored := stored_of_foundEntries leftMember
    grind [stored_of_foundEntries]
  refine ⟨.ok (orderMap.keys.toList.insertionSort
    (fun left right => rankOf orderMap left ≤ rankOf orderMap right)), .ok _, bound, ?_⟩
  intro index
  rcases mapM_returns (fun entry mem =>
    ranked (fuel index) entry ((perm index).mem_iff.mp mem)) with mapped | ⟨pending, early⟩
  · left
    left
    have same : HashMap.collect ((entries index).map rank).reduceOption = orderMap := by
      grind [HashMap.collect_congr, List.reduceOption_mem_iff]
    simp only [rankedSort, mapped, Outcome.ok_bind, same, Outcome.pure_eq_ok]
    rw [insertionSort_perm (rankOf orderMap) injective ((keys index).list_perm_toList _)]
  · grind [Outcome.error_bind, rankedSort]

theorem mainlineSort_settles (wellFounded : WellFounded store.AuthOf) (schedule : ι → MainlineSchedule)
    (fuel width : ι → Nat) (toSort : ι → List EventId) (ids : List EventId) (perm : ∀ index, (toSort index).Perm ids)
    (resolvedPowerLevel : Option EventId) :
    ∃ result, Settles fuel width SameJson (fun index => mainlineSort store (schedule index) (fuel index)
      (width index) (toSort index) resolvedPowerLevel) result := by
  by_cases empty : ids = []
  · refine ⟨.ok [], Settles.of_eq (.ok _) ?_⟩
    grind [List.Perm.eq_nil, mainlineSort]
  · have some : ∀ index, toSort index ≠ [] := by
      intro index none
      exact empty (none ▸ perm index).symm.eq_nil
    simp only [mainlineSort, some, if_false]
    refine Settles.exists_bind ?_ ?_
    · obtain ⟨bound, finished⟩ := mainline_finishes wellFounded resolvedPowerLevel
      refine ⟨loop (mainlineStep store) bound (resolvedPowerLevel, []), finished, bound, ?_⟩
      intro index
      exact (loop_settles finished (fuel index)).imp Or.inl (And.imp_right Or.inl)
    · intro mainline
      refine Settles.exists_bind_unordered perm ?_
      intro fetched fetchedPerm
      refine Settles.exists_bind_unordered (fun index => (fetchedPerm index).filterMap _) ?_
      intro entries entriesPerm
      exact rankedSort_settles wellFounded (mainlineMap mainline) (fun index => (schedule index).keys)
        fuel width ids entries entriesPerm

end Ranked

end Phantom.StateRes
