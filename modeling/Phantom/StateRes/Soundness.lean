import Phantom.StateRes.Resolve

namespace Phantom.StateRes

open Phantom.Lib Phantom.Matrix

def InConflictedSubgraph (store : EventStore) (stateSets : List (StateMap EventId)) (id : EventId) : Prop :=
  (∃ newer, Conflicted stateSets newer ∧ store.Reaches newer id) ∧
    ∃ older, Conflicted stateSets older ∧ store.Reaches id older

def InFullConflictedSet (store : EventStore) (eventExists : EventId → Bool) (rv : RoomVersion)
    (input : ResolveInput) (id : EventId) : Prop :=
  eventExists id = true ∧ (Conflicted input.stateSets id ∨ InAuthChainDiff input.authChainSets id ∨
    (rv.stateResV21 = true ∧ InConflictedSubgraph store input.stateSets id))

section Accepted

variable (ruma : Ruma) (rv : RoomVersion) (store : EventStore)

/-- The event passes `auth_check` in its turn of a pass over `ids`: against its auth events as the
    store has them, overlaid with the state that the pass has reached by then. -/
def AcceptedInPass (schedule : AuthSchedule) (ids : List EventId) (first : StateMap EventId) (event : Event) :
    Prop :=
  ∃ before after authEvents resolved stateKey authState,
    ids.mapM (fetchOrNotFound store) = .ok (before ++ event :: after) ∧
    (∀ id found, Finmap.lookup id authEvents = some found ↔
      (∃ checked ∈ before ++ event :: after, id ∈ checked.authEvents) ∧ store.fetch id = some found) ∧
    before.foldlM (checkNext ruma rv store authEvents schedule) first = .ok resolved ∧
    event.stateKey = some stateKey ∧ authStateOf ruma rv store authEvents resolved event stateKey = .ok authState ∧
    authCheck ruma rv event (currentThirdParty (schedule.thirdParty event.eventId) authState) authState.lookup =
      .ok true

/-- The two passes of a resolution: over the agreed state, or over none, and over what the first
    pass has made of it. -/
structure Passes (schedule : Schedule) (parallelFetches : Nat) (clean : StateMap EventId) where
  control : List EventId
  left : List EventId
  resolvedControl : StateMap EventId
  controlChecked : iterativeAuthCheck ruma rv store schedule.control parallelFetches control
    (if rv.stateResV21 then ∅ else clean) = .ok resolvedControl

variable {ruma rv store} in
def Passes.Accepted {schedule : Schedule} {parallelFetches : Nat} {clean : StateMap EventId}
    (passes : Passes ruma rv store schedule parallelFetches clean) (key : TypeStateKey) (id : EventId) : Prop :=
  ∃ event, store.fetch id = some event ∧ event.eventType = key.1 ∧ event.stateKey = some key.2 ∧
    ((id ∈ passes.control ∧ AcceptedInPass ruma rv store schedule.control passes.control
        (if rv.stateResV21 then ∅ else clean) event) ∨
      (id ∈ passes.left ∧ AcceptedInPass ruma rv store schedule.left passes.left passes.resolvedControl event))

end Accepted

section Passes

variable {ruma : Ruma} {rv : RoomVersion} {store : EventStore}
variable {schedule : AuthSchedule} {parallelFetches : Nat} {authEvents : HashMap EventId Event} {key : TypeStateKey}
variable {id : EventId} {clean s : StateMap EventId} {allConflicted : Finset EventId}

theorem fetchAuthEvents_lookup {events : List Event}
    (returned : fetchAuthEvents store schedule parallelFetches events = .ok authEvents) (id : EventId) (found : Event) :
    authEvents.lookup id = some found ↔
      (∃ checked ∈ events, id ∈ checked.authEvents) ∧ store.fetch id = some found := by
  obtain ⟨fetched, completed, made⟩ := Outcome.bind_eq_ok.mp returned
  cases made
  have listed := fun id => (schedule.authEvents.perm_of_unordered completed).mem_iff (a := id)
  rw [HashMap.lookup_collect (by grind [EventStore.fetch_id])]
  simp only [List.mem_map, List.mem_filterMap, listed, HashOrder.mem_list, List.mem_toFinset, List.mem_flatMap]
  grind [EventStore.fetch_id]

theorem checkNext_cases {resolved next : StateMap EventId} {event : Event}
    (checked : checkNext ruma rv store authEvents schedule resolved event = .ok next) :
    next = resolved ∨ ∃ stateKey authState, event.stateKey = some stateKey ∧
      authStateOf ruma rv store authEvents resolved event stateKey = .ok authState ∧
      authCheck ruma rv event (currentThirdParty (schedule.thirdParty event.eventId) authState)
        authState.lookup = .ok true ∧ next = resolved.insert (event.eventType, stateKey) event.eventId := by
  simp only [checkNext, Outcome.bind_eq_ok] at checked
  obtain ⟨stateKey, keyed, authState, assembled, accepted, decided, checked⟩ := checked
  cases accepted with
  | false =>
    cases checked
    exact Or.inl rfl
  | true =>
    cases checked
    exact Or.inr ⟨stateKey, authState, Outcome.ofOption_eq_ok.mp keyed, assembled, decided, rfl⟩

theorem iterativeAuthCheck_accepted {ids : List EventId} {first last : StateMap EventId}
    (returned : iterativeAuthCheck ruma rv store schedule parallelFetches ids first = .ok last)
    (held : last.lookup key = some id) (fresh : first.lookup key ≠ some id) :
    id ∈ ids ∧ ∃ event, store.fetch id = some event ∧ event.eventType = key.1 ∧ event.stateKey = some key.2 ∧
      AcceptedInPass ruma rv store schedule ids first event := by
  simp only [iterativeAuthCheck, Outcome.bind_eq_ok] at returned
  obtain ⟨ordered, buffered, events, fetched, authEvents, collected, folded⟩ := returned
  rw [schedule.events.eq_of_ordered buffered] at fetched
  obtain ⟨before, event, after, resolved, next, rfl, reached, checked, unheld, entered⟩ :=
    foldlM_turn (fun resolved : StateMap EventId => resolved.lookup key = some id) folded fresh held
  rcases checkNext_cases checked with rfl | ⟨stateKey, authState, keyed, assembled, accepted, rfl⟩
  · exact absurd entered unheld
  rw [HashMap.lookup_insert_eq] at entered
  split at entered
  · rename_i sameKey
    obtain ⟨other, listed, stored⟩ := mapM_mem fetched (by simp : event ∈ before ++ event :: after)
    have stored := Outcome.ofOption_eq_ok.mp stored
    have own : event.eventId = other := store.fetch_id stored
    have same : event.eventId = id := Option.some.inj entered
    cases sameKey
    cases own.symm.trans same
    exact ⟨listed, event, stored, rfl, keyed, before, after, authEvents, resolved, stateKey, authState, fetched,
      fetchAuthEvents_lookup collected, reached, keyed, assembled, accepted⟩
  · exact absurd entered unheld

section

variable {schedule : Schedule} {fuel : Nat}
    (returned : resolveConflicted ruma store schedule fuel parallelFetches rv clean allConflicted = .ok s)
include returned

theorem resolveConflicted_sound : ∃ passes : Passes ruma rv store schedule parallelFetches clean,
    (∀ id ∈ passes.control ++ passes.left, id ∈ allConflicted) ∧
    ∀ key id, s.lookup key = some id → clean.lookup key = some id ∨ passes.Accepted key id := by
  simp only [resolveConflicted, Outcome.bind_eq_ok] at returned
  obtain ⟨completed, control, sortedControl, powerSorted, resolvedControl, controlChecked, sortedLeft, mainlineSorted,
    resolvedState, leftChecked, made⟩ := returned
  cases made
  have conflicted : ∀ other ∈ completed.filter (isPowerEventId ruma store), other ∈ allConflicted := by
    intro other mem
    have listed := (List.mem_filter.mp mem).1
    rw [(schedule.controlEvents.perm_of_unordered control).mem_iff, HashOrder.mem_list] at listed
    exact listed
  refine ⟨⟨sortedControl, sortedLeft, resolvedControl, controlChecked⟩, ?_, ?_⟩
  · intro id mem
    rcases List.mem_append.mp mem with power | left
    · exact mem_of_reverseTopologicalPowerSort powerSorted conflicted power
    · exact (HashOrder.mem_list _).mp (List.mem_filter.mp (mem_of_mainlineSort mainlineSorted left)).1
  intro key id held
  by_cases agreed : key ∈ clean
  · rw [Finmap.lookup_union_left agreed] at held
    exact Or.inl held
  rw [Finmap.lookup_union_right agreed] at held
  by_cases early : resolvedControl.lookup key = some id
  · by_cases initial : (if rv.stateResV21 then ∅ else clean : StateMap EventId).lookup key = some id
    · split at initial
      · cases initial
      · exact Or.inl initial
    · obtain ⟨mem, event, stored, kind, keyed, accepted⟩ := iterativeAuthCheck_accepted controlChecked early initial
      exact Or.inr ⟨event, stored, kind, keyed, Or.inl ⟨mem, accepted⟩⟩
  · obtain ⟨mem, event, stored, kind, keyed, accepted⟩ := iterativeAuthCheck_accepted leftChecked held early
    exact Or.inr ⟨event, stored, kind, keyed, Or.inr ⟨mem, accepted⟩⟩

theorem resolveConflicted_clean (held : clean.lookup key = some id) : s.lookup key = some id := by
  simp only [resolveConflicted, Outcome.bind_eq_ok] at returned
  obtain ⟨_, _, _, _, _, _, _, _, resolvedState, _, made⟩ := returned
  cases made
  rw [Finmap.lookup_union_left (Finmap.mem_of_lookup_eq_some held), held]

end

end Passes

section Resolve

variable {ruma : Ruma} {store : EventStore} {eventExists : EventId → Bool} {schedule : Schedule}
  {fuel parallelFetches : Nat}
variable {stateSets : List (StateMap EventId)} {id : EventId} {subgraph : Finset EventId}

theorem mem_conflictedSetOf :
    id ∈ conflictedSetOf schedule (separate schedule.separate stateSets).2 ↔ Conflicted stateSets id := by
  unfold conflictedSetOf Conflicted
  rw [List.mem_toFinset, List.mem_flatMap]
  constructor
  · intro found
    obtain ⟨⟨key, ids⟩, held, listed⟩ := found
    rw [HashOrder.mem_iterate] at held
    refine ⟨key, (separate_conflicting schedule.separate).mp ?_⟩
    rw [held]
    exact listed
  · intro found
    obtain ⟨key, conflicted⟩ := found
    have listed := (separate_conflicting schedule.separate).mpr conflicted
    cases held : (separate schedule.separate stateSets).2.lookup key with
    | none => rw [held] at listed; cases listed
    | some ids =>
      rw [held] at listed
      exact ⟨(key, ids), (HashOrder.mem_iterate _).mpr held, listed⟩

theorem mem_allConflictedOf {authChainSets : List (Finset EventId)} {conflictedSet allConflicted : Finset EventId}
    (returned : allConflictedOf eventExists schedule parallelFetches authChainSets conflictedSet subgraph =
      .ok allConflicted) : id ∈ allConflicted ↔ eventExists id = true ∧
      (InAuthChainDiff authChainSets id ∨ id ∈ conflictedSet ∨ id ∈ subgraph) := by
  obtain ⟨completed, chained, made⟩ := Outcome.bind_eq_ok.mp returned
  cases made
  rw [List.mem_toFinset, List.mem_filter, (schedule.existing.perm_of_unordered chained).mem_iff,
    List.mem_append, List.mem_append, HashOrder.mem_list, HashOrder.mem_list, mem_getAuthChainDiff,
    and_comm, or_assoc]

theorem subgraphOf_sound {rv : RoomVersion} (returned : subgraphOf store schedule fuel rv
      (conflictedSetOf schedule (separate schedule.separate stateSets).2) = .ok subgraph)
    (mem : id ∈ subgraph) : rv.stateResV21 = true ∧ InConflictedSubgraph store stateSets id := by
  unfold subgraphOf at returned
  split at returned
  · rename_i version
    obtain ⟨⟨newer, newerConflicted, down⟩, older, olderConflicted, up⟩ := conflictedStateSubgraph_sound returned mem
    exact ⟨version, ⟨newer, mem_conflictedSetOf.mp newerConflicted, down⟩, older,
      mem_conflictedSetOf.mp olderConflicted, up⟩
  · cases returned
    cases mem

theorem fullConflictedSet_of_mem {rv : RoomVersion} {input : ResolveInput} {allConflicted : Finset EventId}
    (walked : subgraphOf store schedule fuel rv
      (conflictedSetOf schedule (separate schedule.separate input.stateSets).2) = .ok subgraph)
    (collected : allConflictedOf eventExists schedule parallelFetches input.authChainSets
      (conflictedSetOf schedule (separate schedule.separate input.stateSets).2) subgraph = .ok allConflicted)
    (mem : id ∈ allConflicted) : InFullConflictedSet store eventExists rv input id := by
  obtain ⟨present, inDiff | conflicted | between⟩ := (mem_allConflictedOf collected).mp mem
  · exact ⟨present, Or.inr (Or.inl inDiff)⟩
  · exact ⟨present, Or.inl (mem_conflictedSetOf.mp conflicted)⟩
  · exact ⟨present, Or.inr (Or.inr (subgraphOf_sound walked between))⟩

/-- Whatever `resolve` returns holds the agreed state, and besides it only events of the full
    conflicted set under their own keys, each accepted in its turn of one of the two passes. -/
theorem resolve_sound {roomVersion : RoomVersionId} {input : ResolveInput} {state : StateMap EventId}
    (returned : resolve ruma store eventExists schedule fuel parallelFetches roomVersion input = .ok state) :
    ∃ rv, RoomVersion.new roomVersion = .ok rv ∧
      (∀ key id, Agreed input.stateSets key id → state.lookup key = some id) ∧
      ((∀ key id, state.lookup key = some id → Agreed input.stateSets key id) ∨
        ∃ clean, ∃ passes : Passes ruma rv store schedule parallelFetches clean,
          (∀ key id, clean.lookup key = some id ↔ Agreed input.stateSets key id) ∧
          (∀ id ∈ passes.control ++ passes.left, InFullConflictedSet store eventExists rv input id) ∧
          ∀ key id, state.lookup key = some id → Agreed input.stateSets key id ∨
            (InFullConflictedSet store eventExists rv input id ∧ passes.Accepted key id)) := by
  obtain ⟨rv, version, returned⟩ := Outcome.bind_eq_ok.mp returned
  refine ⟨rv, version, ?_⟩
  have clean : ∀ key id, (separate schedule.separate input.stateSets).1.lookup key = some id ↔
      Agreed input.stateSets key id := fun _ _ => separate_clean
  dsimp only at returned
  split at returned
  · cases returned
    exact ⟨fun key id => (clean key id).mpr, Or.inl fun key id => (clean key id).mp⟩
  · obtain ⟨subgraph, walked, returned⟩ := Outcome.bind_eq_ok.mp returned
    obtain ⟨allConflicted, collected, returned⟩ := Outcome.bind_eq_ok.mp returned
    obtain ⟨passes, conflicted, sound⟩ := resolveConflicted_sound returned
    have full := fun id mem => fullConflictedSet_of_mem walked collected (conflicted id mem)
    refine ⟨fun key id agreed => resolveConflicted_clean returned ((clean key id).mpr agreed), Or.inr ?_⟩
    refine ⟨_, passes, clean, full, ?_⟩
    intro key id held
    refine (sound key id held).imp (clean key id).mp fun accepted => ⟨full id ?_, accepted⟩
    obtain ⟨_, _, _, _, mem⟩ := accepted
    exact List.mem_append.mpr (mem.imp And.left And.left)

end Resolve

namespace Sample

open Phantom.Matrix.Sample

def resolvedTopic : Option EventId :=
  match resolve ruma topicStore (fun _ => true) (schedule .inOrder) 20 4 .v12 topicFork with
  | .ok state => state.lookup topic
  | .error _ => none

theorem resolve_sound_topic :
    ∃ state, resolve ruma topicStore (fun _ => true) (schedule .inOrder) 20 4 .v12 topicFork = .ok state ∧
      state.lookup topic = some ⟨"$t"⟩ ∧ ∃ rv, RoomVersion.new .v12 = .ok rv ∧
        (∀ key id, Agreed topicFork.stateSets key id → state.lookup key = some id) ∧
        ((∀ key id, state.lookup key = some id → Agreed topicFork.stateSets key id) ∨
          ∃ clean, ∃ passes : Passes ruma rv topicStore (schedule .inOrder) 4 clean,
            (∀ key id, clean.lookup key = some id ↔ Agreed topicFork.stateSets key id) ∧
            (∀ id ∈ passes.control ++ passes.left, InFullConflictedSet topicStore (fun _ => true) rv topicFork id) ∧
            ∀ key id, state.lookup key = some id → Agreed topicFork.stateSets key id ∨
              (InFullConflictedSet topicStore (fun _ => true) rv topicFork id ∧ passes.Accepted key id)) := by
  have winner : resolvedTopic = some ⟨"$t"⟩ := by decide
  unfold resolvedTopic at winner
  split at winner
  · rename_i state returned
    exact ⟨state, returned, winner, resolve_sound returned⟩
  · cases winner

end Sample

end Phantom.StateRes
