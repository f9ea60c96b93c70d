import Phantom.StateRes.AuthLoopSettles
import Phantom.StateRes.MainlineSettles
import Phantom.StateRes.Soundness
import Phantom.StateRes.SubgraphExact

namespace Phantom.StateRes

open Phantom.Lib Phantom.Matrix

/-- The same state sets and auth chains, listed in another order. -/
structure ResolveInput.Reordered (left right : ResolveInput) : Prop where
  stateSets : left.stateSets.Perm right.stateSets
  authChainSets : left.authChainSets.Perm right.authChainSets

theorem ResolveInput.Reordered.symm {left right : ResolveInput} (reordered : left.Reordered right) :
    right.Reordered left := ⟨reordered.stateSets.symm, reordered.authChainSets.symm⟩

theorem ResolveInput.Reordered.trans {left middle right : ResolveInput}
    (first : left.Reordered middle) (second : middle.Reordered right) : left.Reordered right :=
  ⟨first.stateSets.trans second.stateSets, first.authChainSets.trans second.authChainSets⟩

section Inputs

variable {store : EventStore} {left right : ResolveInput}

section

variable (reordered : left.Reordered right)
include reordered

variable (first second : SeparateSchedule)

theorem separate_clean_reordered :
    (separate first left.stateSets).1 = (separate second right.stateSets).1 := by
  refine Finmap.ext_lookup ?_
  intro key
  ext id
  rw [separate_clean, separate_clean]
  simp only [Agreed, reordered.stateSets.mem_iff]

theorem separate_keys_reordered :
    (separate first left.stateSets).2.keys = ∅ ↔ (separate second right.stateSets).2.keys = ∅ := by
  rw [separate_conflicting_empty, separate_conflicting_empty]
  simp only [ConflictedAt, reordered.stateSets.mem_iff]

theorem conflictedSetOf_reordered (first second : Schedule) :
    conflictedSetOf first (separate first.separate left.stateSets).2 =
      conflictedSetOf second (separate second.separate right.stateSets).2 := by
  ext id
  rw [mem_conflictedSetOf, mem_conflictedSetOf]
  simp only [Conflicted, ConflictedAt, reordered.stateSets.mem_iff]

end

variable {ι : Type}

theorem subgraphOf_settles (wellFounded : WellFounded store.AuthOf) (rv : RoomVersion) (schedule : ι → Schedule)
    (fuel width : ι → Nat) (conflictedSet : Finset EventId) : ∃ result, Settles fuel width SameJson
      (fun index => subgraphOf store (schedule index) (fuel index) rv conflictedSet) result := by
  unfold subgraphOf
  by_cases version : rv.stateResV21 = true
  · simp only [version, if_true]
    obtain ⟨bound, returns⟩ := conflictedStateSubgraph_returns wellFounded conflictedSet
    have order : HashOrder EventId := .ascending id Function.injective_id
    obtain ⟨subgraph, walked⟩ : ∃ subgraph,
        conflictedStateSubgraph store conflictedSet order bound = .ok subgraph := by
      rcases returns order bound with walked | ⟨_, impossible⟩
      · exact walked
      · omega
    refine ⟨.ok subgraph, .ok _, bound, ?_⟩
    intro index
    rcases returns (schedule index).subgraph (fuel index) with ⟨other, otherWalked⟩ | ⟨pending, early⟩
    · left
      left
      refine otherWalked.trans (congrArg Except.ok (Finset.ext ?_))
      grind [conflictedStateSubgraph_complete, conflictedStateSubgraph_sound]
    · exact Or.inr ⟨pending, Or.inl early⟩
  · simp only [version]
    exact ⟨.ok ∅, Settles.of_eq (.ok _) fun _ => rfl⟩

theorem allConflictedOf_settles (eventExists : EventId → Bool) (schedule : ι → Schedule) (fuel width : ι → Nat)
    (inputs : ι → ResolveInput) (input : ResolveInput) (reordered : ∀ index, (inputs index).Reordered input)
    (conflictedSet subgraph : Finset EventId) :
    ∃ result, Settles fuel width SameJson (fun index => allConflictedOf eventExists (schedule index)
      (width index) (inputs index).authChainSets conflictedSet subgraph) result := by
  have order : HashOrder EventId := .ascending id Function.injective_id
  refine ⟨.ok ((getAuthChainDiff { chains := fun _ => order, counts := order } input.authChainSets ++
    conflictedSet.toList ++ subgraph.toList).filter eventExists).toFinset, .ok _, 0, ?_⟩
  intro index
  rcases (schedule index).existing.unordered_cases (ε := Error) (width index)
    (getAuthChainDiff (schedule index).authChains (inputs index).authChainSets ++
      (schedule index).conflictedSet.list conflictedSet ++ (schedule index).subgraphSet.list subgraph) with
    ⟨completed, returned, perm⟩ | ⟨pending, zero⟩
  · left
    left
    simp only [allConflictedOf, returned, Outcome.ok_bind]
    refine congrArg Except.ok (Finset.ext ?_)
    intro id
    simp only [List.mem_toFinset, List.mem_filter, perm.mem_iff, List.mem_append, HashOrder.mem_list,
      Finset.mem_toList, mem_getAuthChainDiff, InAuthChainDiff, (reordered index).authChainSets.mem_iff]
  · grind [Outcome.error_bind, allConflictedOf]

end Inputs

section Resolve

variable {store : EventStore} {ruma : Ruma} {ι : Type} {schedule : ι → Schedule} {width : ι → Nat}

theorem resolveConflicted_settles {rv : RoomVersion} {fuel : ι → Nat} {power : EventId → Outcome Error UserPower}
    (wellFounded : WellFounded store.AuthOf)
    (alike : RankedAlike ruma rv store (fun index => (schedule index).powerSort.authEvents) width power)
    (clean : StateMap EventId) (allConflicted : Finset EventId) :
    ∃ result, Settles fuel width SameJson (fun index => resolveConflicted ruma store (schedule index)
      (fuel index) (width index) rv clean allConflicted) result := by
  refine Settles.exists_bind_unordered (fun index => (schedule index).allConflicted.list_perm_toList allConflicted) ?_
  intro completed perm
  refine Settles.exists_bind (reverseTopologicalPowerSort_settles wellFounded alike _ _
    (fun index => (perm index).filter _) allConflicted) ?_
  intro sortedControlLevels
  refine Settles.exists_bind (iterativeAuthCheck_settles ruma rv (fun index => (schedule index).control)
    fuel width sortedControlLevels _) ?_
  intro resolvedControl
  refine Settles.exists_bind (mainlineSort_settles wellFounded (fun index => (schedule index).mainline)
    fuel width _ _ (fun index => ((schedule index).remaining.list_perm_toList allConflicted).filter _) _) ?_
  intro sortedLeftEvents
  refine Settles.exists_bind (iterativeAuthCheck_settles ruma rv (fun index => (schedule index).left)
    fuel width sortedLeftEvents resolvedControl) ?_
  intro resolvedState
  exact ⟨.ok (clean ∪ resolvedState), Settles.of_eq (.ok _) fun _ => rfl⟩

theorem resolve_settles {power : RoomVersion → EventId → Outcome Error UserPower} (fuel : ι → Nat)
    (eventExists : EventId → Bool) (wellFounded : WellFounded store.AuthOf)
    (alike : ∀ rv, RankedAlike ruma rv store (fun index => (schedule index).powerSort.authEvents) width (power rv))
    (roomVersion : RoomVersionId) (inputs : ι → ResolveInput)
    (reordered : ∀ left right, (inputs left).Reordered (inputs right)) :
    ∃ result, Settles fuel width SameJson (fun index => resolve ruma store eventExists (schedule index)
      (fuel index) (width index) roomVersion (inputs index)) result := by
  refine Settles.exists_bind ⟨_, Settles.of_eq (RoomVersion.new_finishes roomVersion) fun _ => rfl⟩ ?_
  intro rv
  refine Settles.exists_of_index ?_
  intro reference
  have clean := fun index => separate_clean_reordered (reordered index reference)
    (schedule index).separate (schedule reference).separate
  have keys := fun index => separate_keys_reordered (reordered index reference)
    (schedule index).separate (schedule reference).separate
  have conflicted := fun index => conflictedSetOf_reordered (reordered index reference)
    (schedule index) (schedule reference)
  simp only [clean, keys, conflicted]
  by_cases empty : (separate (schedule reference).separate (inputs reference).stateSets).2.keys = ∅
  · simp only [empty, if_true]
    exact ⟨_, Settles.of_eq (.ok _) fun _ => rfl⟩
  · simp only [empty, if_false]
    refine Settles.exists_bind (subgraphOf_settles wellFounded rv schedule fuel width _) ?_
    intro subgraph
    refine Settles.exists_bind (allConflictedOf_settles eventExists schedule fuel width inputs
      (inputs reference) (fun index => reordered index reference) _ subgraph) ?_
    intro allConflicted
    exact resolveConflicted_settles wellFounded (alike rv) _ allConflicted

/-- On an acyclic event graph `resolve` has one outcome for all orders of its inputs, of the
    collections it iterates and of its fetches, up to the text of a parser error. -/
theorem resolve_deterministic (ruma : Ruma) (eventExists : EventId → Bool) (roomVersion : RoomVersionId)
    (input : ResolveInput) (acyclic : store.Acyclic) (single : SingleAuth store) :
    ∃ result bound, result ≠ .error .unfinished ∧
      ∀ schedule fuel parallelFetches other, ResolveInput.Reordered other input →
        Alike SameJson (resolve ruma store eventExists schedule fuel parallelFetches roomVersion other) result ∨
        (resolve ruma store eventExists schedule fuel parallelFetches roomVersion other =
          .error .unfinished ∧ (fuel < bound ∨ parallelFetches = 0)) := by
  have alike := fun rv => rankedAlike_of_single ruma rv single
    (fun call : Schedule × Nat × Nat × {other : ResolveInput // other.Reordered input} =>
      call.1.powerSort.authEvents) fun call => call.2.2.1
  obtain ⟨result, finishes, bound, settled⟩ := resolve_settles (fun call => call.2.1) eventExists
    acyclic.wellFounded alike roomVersion (fun call => call.2.2.2.1)
    (fun left right => left.2.2.2.2.trans right.2.2.2.2.symm)
  refine ⟨result, bound, finishes, ?_⟩
  intro schedule fuel parallelFetches other reordered
  exact settled (schedule, fuel, parallelFetches, ⟨other, reordered⟩)

end Resolve

namespace Sample

open Phantom.Matrix.Sample

variable (events : List Event)

theorem storeOf_single
    (once : ∀ event ∈ events, ∀ left ∈ event.authEvents, ∀ right ∈ event.authEvents, left = right) :
    SingleAuth (storeOf events) := by
  intro newer left right _ _ _ _ leftNamed rightNamed _ _ _ _
  unfold EventStore.authEvents at leftNamed rightNamed
  cases found : (storeOf events).fetch newer with
  | none => rw [found] at leftNamed; cases leftNamed
  | some event =>
    rw [found] at leftNamed rightNamed
    exact once event (List.mem_of_find?_eq_some found) left leftNamed right rightNamed

def joinRules (eventId : String) (authEvents : List String) : Event :=
  event eventId alice .roomJoinRules (some "") [] ["$c"] authEvents

def malformedEvents : List Event :=
  [create, event "$p" alice .roomPowerLevels (some "") [("users", .string "")] ["$c"] ["$c"],
    event "$q" alice .roomPowerLevels (some "") [("users_default", .string "")] ["$c"] ["$c"],
    joinRules "$s" ["$p"], joinRules "$t" ["$q"]]

def joinRulesFork : ResolveInput where
  stateSets := [agreedState.insert (.roomJoinRules, "") ⟨"$s"⟩, agreedState.insert (.roomJoinRules, "") ⟨"$t"⟩]
  authChainSets := [∅, ∅]

def malformedRank (id : EventId) : Nat :=
  if id = ⟨"$c"⟩ then 0 else if id = ⟨"$p"⟩ ∨ id = ⟨"$q"⟩ then 1 else 2

def resolveMalformed (powerLevels : Completion) : Outcome Error (StateMap EventId) :=
  resolve ruma (storeOf malformedEvents) (fun _ => true) (schedule powerLevels) 20 4 .v11 joinRulesFork

theorem resolve_reports_first_failure : (storeOf malformedEvents).Acyclic ∧ SingleAuth (storeOf malformedEvents) ∧
    resolveMalformed .inOrder = .fail (.serdeJson "invalid PowerLevelsContentFields at users") ∧
    resolveMalformed .reversed = .fail (.serdeJson "invalid PowerLevelsContentFields at users_default") := by
  refine ⟨storeOf_acyclic _ malformedRank (by decide), storeOf_single _ (by decide), ?_, ?_⟩
  · decide
  · decide

theorem resolve_deterministic_malformed : ∃ result bound, result ≠ .error .unfinished ∧
      ∀ schedule fuel parallelFetches other, ResolveInput.Reordered other joinRulesFork →
        Alike SameJson (resolve ruma (storeOf malformedEvents) (fun _ => true) schedule fuel
          parallelFetches .v11 other) result ∨
        (resolve ruma (storeOf malformedEvents) (fun _ => true) schedule fuel parallelFetches .v11 other =
          .error .unfinished ∧ (fuel < bound ∨ parallelFetches = 0)) :=
  resolve_deterministic ruma (fun _ => true) .v11 joinRulesFork
    (storeOf_acyclic _ malformedRank (by decide)) (storeOf_single _ (by decide))

end Sample

end Phantom.StateRes
