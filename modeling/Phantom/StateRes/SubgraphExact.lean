import Mathlib.Algebra.BigOperators.Group.Finset.Basic
import Phantom.StateRes.Resolve

namespace Phantom.StateRes

open Phantom.Lib Phantom.Matrix Relation

variable {store : EventStore} {conflicted : Finset EventId}
variable {stack : List (EventId × Bool)} {state s : SubgraphState} {id : EventId} {order : HashOrder EventId}

def Covered (store : EventStore) : Set EventId → List (EventId × Bool) → Prop
  | _, [] => True
  | done, (id, false) :: stack => Covered store (insert id done) stack
  | done, (id, true) :: stack =>
    (∀ auth ∈ store.authEvents id, auth ∈ done) ∧ Covered store (insert id done) stack

theorem Covered.mono {fewer more : Set EventId} (included : fewer ⊆ more)
    (covered : Covered store fewer stack) : Covered store more stack := by
  induction stack generalizing fewer more with
  | nil => trivial
  | cons entry stack ih =>
    obtain ⟨id, expanded⟩ := entry
    cases expanded with
    | false => exact ih (Set.insert_subset_insert included) covered
    | true =>
      exact ⟨fun auth mem => included (covered.1 auth mem), ih (Set.insert_subset_insert included) covered.2⟩

theorem Covered.push {stack : List (EventId × Bool)} (ids : List EventId) {done : Set EventId}
    (covered : Covered store (done ∪ {id | id ∈ ids}) stack) :
    Covered store done (ids.map (fun id => (id, false)) ++ stack) := by
  induction ids generalizing done with
  | nil => simpa using covered
  | cons id ids ih =>
    refine ih (covered.mono ?_)
    grind

structure WalkExact (store : EventStore) (conflicted : Finset EventId) (state : SubgraphState) : Prop where
  authOf : ∀ id auths, state.authOf.lookup id = some auths → auths = store.authEvents id
  covered : Covered store {id | id ∈ state.reaches} state.stack
  nested : state.stack.Pairwise fun above below => below.2 = true → TransGen store.AuthOf above.1 below.1
  visited : ∀ id ∈ state.authOf, id ∈ state.reaches ∨ (id, true) ∈ state.stack
  waiting : ∀ id, (id, true) ∈ state.stack → id ∈ state.authOf
  closed : ∀ id ∈ state.reaches, ∀ auth ∈ store.authEvents id, auth ∈ state.reaches
  verdict : ∀ id verdict, state.reaches.lookup id = some verdict →
    (∃ older ∈ conflicted, store.Reaches id older) → verdict = true
  roots : ∀ id ∈ conflicted, id ∈ state.authOf ∨ (id, false) ∈ state.stack

theorem reachesConflicted_complete (walk : WalkExact store conflicted s) (expanded : id ∈ s.authOf)
    (finished : ∀ auth ∈ store.authEvents id, auth ∈ s.reaches)
    (reaches : ∃ older ∈ conflicted, store.Reaches id older) : reachesConflicted conflicted s id = true := by
  obtain ⟨older, conflict, path⟩ := reaches
  unfold reachesConflicted
  rcases ReflTransGen.cases_tail path with same | ⟨auth, rest, last⟩
  · subst same
    simp [conflict]
  · have listed : auth ∈ store.authEvents id := last
    obtain ⟨value, held⟩ := Finmap.mem_iff.mp (finished auth listed)
    have positive := walk.verdict auth value held ⟨older, conflict, rest⟩
    obtain ⟨auths, looked⟩ := Finmap.mem_iff.mp expanded
    grind [WalkExact.authOf]

theorem walkExact_finish (walk : WalkExact store conflicted s) (shape : s.stack = (id, true) :: stack) :
    WalkExact store conflicted { s with
      reaches := s.reaches.insert id (reachesConflicted conflicted s id), stack := stack } := by
  have covered := walk.covered
  have nested := walk.nested
  rw [shape] at covered nested
  have expanded := walk.waiting id (by rw [shape]; exact List.mem_cons_self ..)
  refine ⟨walk.authOf, ?_, (List.pairwise_cons.mp nested).2, ?_, ?_, ?_, ?_, ?_⟩
  · refine covered.2.mono ?_
    grind [Finmap.mem_insert]
  · grind [WalkExact.visited, Finmap.mem_insert]
  · grind [WalkExact.waiting]
  · intro other mem auth listed
    rcases Finmap.mem_insert.mp mem with same | mem
    · subst same
      exact Finmap.mem_insert.mpr (Or.inr (covered.1 auth listed))
    · exact Finmap.mem_insert.mpr (Or.inr (walk.closed other mem auth listed))
  · intro other verdict held reaches
    rw [HashMap.lookup_insert_eq] at held
    split at held
    · rename_i same
      subst same
      rw [reachesConflicted_complete walk expanded covered.1 reaches] at held
      exact (Option.some.inj held).symm
    · exact walk.verdict other verdict held reaches
  · grind [WalkExact.roots]

section

variable (wellFounded : WellFounded store.AuthOf) (walk : WalkExact store conflicted s)
    (shape : s.stack = (id, false) :: stack)
include wellFounded walk shape

theorem walkExact_skip (visited : id ∈ s.authOf) : WalkExact store conflicted { s with stack := stack } := by
  have covered := walk.covered
  have nested := walk.nested
  rw [shape] at covered nested
  have finished : id ∈ s.reaches := by
    rcases walk.visited id visited with finished | waits
    · exact finished
    · rw [shape] at waits
      rcases List.mem_cons.mp waits with same | waits
      · cases same
      · have cycle := (List.pairwise_cons.mp nested).1 (id, true) waits rfl
        exact absurd cycle (wellFounded.transGen.irrefl.irrefl id)
  refine ⟨walk.authOf, ?_, (List.pairwise_cons.mp nested).2, ?_, ?_, walk.closed, walk.verdict, ?_⟩
  · refine Covered.mono ?_ covered
    grind
  · grind [WalkExact.visited]
  · grind [WalkExact.waiting]
  · grind [WalkExact.roots]

theorem walkExact_expand : WalkExact store conflicted
    { s with stack := (((store.authEvents id).filter fun auth => auth ∉ s.authOf).map
    (fun auth => (auth, false))).reverse ++ (id, true) :: stack, authOf :=
    s.authOf.insert id (store.authEvents id) } := by
  have covered := walk.covered
  have nested := walk.nested
  rw [shape] at covered nested
  have above := (List.pairwise_cons.mp nested).1
  have pushed : ∀ entry ∈ (((store.authEvents id).filter fun auth => auth ∉ s.authOf).map
      (fun auth => (auth, false))).reverse, store.AuthOf entry.1 id ∧ entry.2 = false := by
    intro entry mem
    obtain ⟨auth, listed, rfl⟩ := List.mem_map.mp (List.mem_reverse.mp mem)
    exact ⟨(List.mem_filter.mp listed).1, rfl⟩
  refine ⟨?_, ?_, ?_, ?_, ?_, walk.closed, walk.verdict, ?_⟩
  · grind [HashMap.lookup_insert_eq, WalkExact.authOf]
  · rw [← List.map_reverse]
    refine Covered.push _ ⟨?_, covered.mono (Set.insert_subset_insert Set.subset_union_left)⟩
    intro auth listed
    by_cases visited : auth ∈ s.authOf
    · rcases walk.visited auth visited with finished | waits
      · exact Or.inl finished
      · rw [shape] at waits
        rcases List.mem_cons.mp waits with same | waits
        · cases same
        · have cycle := (above (auth, true) waits rfl).head listed
          exact absurd cycle (wellFounded.transGen.irrefl.irrefl auth)
    · grind
  · refine List.pairwise_append.mpr ⟨?_, List.pairwise_cons.mpr ⟨above, (List.pairwise_cons.mp nested).2⟩, ?_⟩
    · refine List.pairwise_of_forall_mem_list ?_
      intro upper _ lower mem expanded
      rw [(pushed lower mem).2] at expanded
      cases expanded
    · intro upper upperMember lower lowerMember expanded
      have auth := (pushed upper upperMember).1
      rcases List.mem_cons.mp lowerMember with same | lowerMember
      · subst same
        exact .single auth
      · exact .head auth (above lower lowerMember expanded)
  · grind [Finmap.mem_insert, WalkExact.visited]
  · grind [Finmap.mem_insert, WalkExact.waiting]
  · grind [WalkExact.roots, Finmap.mem_insert]

end

variable {next : SubgraphState}

theorem walkExact_step (wellFounded : WellFounded store.AuthOf) (walk : WalkExact store conflicted s)
    (ran : subgraphStep store conflicted s = .ok (.inl next)) : WalkExact store conflicted next := by
  grind [subgraphStep_cases, walkExact_finish, walkExact_skip, walkExact_expand]

theorem walkExact_start : WalkExact store conflicted (subgraphStart conflicted order) := by
  have unexpanded : ∀ entry ∈ (subgraphStart conflicted order).stack, entry.2 = false := by
    intro entry mem
    obtain ⟨id, _, rfl⟩ := List.mem_map.mp (List.mem_reverse.mp mem)
    rfl
  constructor
  · intro id auths held
    cases held
  · unfold subgraphStart
    rw [← List.map_reverse, ← List.append_nil (List.map _ _)]
    exact Covered.push _ trivial
  · grind [List.pairwise_of_forall_mem_list]
  · intro id mem
    exact absurd mem Finmap.notMem_empty
  · grind
  · intro id mem
    exact absurd mem Finmap.notMem_empty
  · intro id verdict held
    cases held
  · intro id conflict
    exact Or.inr (List.mem_reverse.mpr (List.mem_map.mpr ⟨id, (HashOrder.mem_list _).mpr conflict, rfl⟩))

theorem walkExact_done (walk : WalkExact store conflicted s)
    (empty : s.stack = []) {newer : EventId} (conflict : newer ∈ conflicted)
    (path : store.Reaches newer id) : id ∈ s.reaches := by
  have all : ∀ other ∈ s.authOf, other ∈ s.reaches := by
    grind [WalkExact.visited]
  have root : newer ∈ s.reaches := by
    grind [WalkExact.roots]
  induction path using ReflTransGen.head_induction_on with
  | refl => exact root
  | head auth _ ih => exact walk.closed _ ih _ auth

variable {fuel : Nat}

theorem conflictedStateSubgraph_complete {subgraph : Finset EventId} (wellFounded : WellFounded store.AuthOf)
    (returned : conflictedStateSubgraph store conflicted order fuel = .ok subgraph)
    (between : InSubgraph store conflicted id) : id ∈ subgraph := by
  obtain ⟨reaches, walked, made⟩ := Outcome.bind_eq_ok.mp returned
  cases made
  obtain ⟨⟨newer, conflict, path⟩, reached⟩ := between
  have complete := loop_invariant (WalkExact store conflicted)
    (fun reaches => id ∈ reaches ∧ ∀ verdict, reaches.lookup id = some verdict → verdict = true)
    (fun _ _ walk ran => walkExact_step wellFounded walk ran) fun _ _ walk left => by
      obtain ⟨empty, rfl⟩ := subgraphStep_result left
      grind [walkExact_done, WalkExact.verdict]
    walked walkExact_start
  grind [Finmap.mem_iff, Finmap.mem_keys]

/-- What an entry of the stack can still cost, by the sizes of the events below it. -/
def walkWeight (size : EventId → Nat) (entry : EventId × Bool) : Nat :=
  if entry.2 then 1 else 2 * size entry.1

theorem sum_filter_le (values : EventId → Nat) (keep : EventId → Bool) (ids : List EventId) :
    ((ids.filter keep).map values).sum ≤ (ids.map values).sum :=
  List.Sublist.sum_le_sum (List.filter_sublist.map values) fun _ _ => Nat.zero_le _

theorem walkWeight_step {size : EventId → Nat} (shrinks : ∀ id, ((store.authEvents id).map size).sum < size id)
    (ran : subgraphStep store conflicted s = .ok (.inl next)) :
    (next.stack.map (walkWeight size)).sum < (s.stack.map (walkWeight size)).sum := by
  obtain ⟨id, expanded, stack, shape, turn⟩ := subgraphStep_cases ran
  rw [shape, List.map_cons, List.sum_cons]
  rcases turn with ⟨rfl, rfl⟩ | ⟨rfl, _, rfl⟩ | ⟨rfl, _, rfl⟩
  · simp [walkWeight]
  · grind [walkWeight]
  · have pushed := sum_filter_le size (fun auth => auth ∉ s.authOf) (store.authEvents id)
    have doubled : ∀ ids : List EventId,
        ((ids.map fun auth => (auth, false)).map (walkWeight size)).sum = 2 * (ids.map size).sum := by
      intro ids
      induction ids with
      | nil => rfl
      | cons auth ids ih =>
        grind [walkWeight]
    grind [List.map_reverse, walkWeight]

theorem subgraphStep_total (s : SubgraphState) (failure : Failure Error) :
    subgraphStep store conflicted s ≠ .error failure := by
  grind [subgraphStep]

theorem conflictedStateSubgraph_failure {failure : Failure Error}
    (failed : conflictedStateSubgraph store conflicted order fuel = .error failure) : failure = .unfinished := by
  rcases Outcome.bind_eq_error.mp failed with failed | ⟨_, _, failed⟩
  · refine Or.resolve_right (loop_failure (fun _ => True) (fun _ => False) (fun _ _ _ _ => trivial)
      (fun s failure _ ran => subgraphStep_total s failure ran) failed trivial) id
  · cases failed

theorem conflictedStateSubgraph_returns (wellFounded : WellFounded store.AuthOf)
    (conflicted : Finset EventId) : ∃ bound, ∀ order fuel,
      (∃ subgraph, conflictedStateSubgraph store conflicted order fuel = .ok subgraph) ∨
      (conflictedStateSubgraph store conflicted order fuel = .error .unfinished ∧ fuel < bound) := by
  obtain ⟨size, shrinks⟩ := EventStore.exists_size wellFounded
  refine ⟨((conflicted.toList.map fun id => (id, false)).map (walkWeight size)).sum + 1, ?_⟩
  intro order fuel
  have started : ((subgraphStart conflicted order).stack.map (walkWeight size)).sum =
      ((conflicted.toList.map fun id => (id, false)).map (walkWeight size)).sum := by
    grind [List.Perm.sum_eq, List.Perm.map, HashOrder.list_perm_toList, subgraphStart]
  cases walked : conflictedStateSubgraph store conflicted order fuel with
  | ok subgraph => exact Or.inl ⟨subgraph, rfl⟩
  | error failure =>
    obtain rfl := conflictedStateSubgraph_failure walked
    refine Or.inr ⟨rfl, ?_⟩
    by_contra enough
    rcases Outcome.bind_eq_error.mp walked with walked | ⟨_, _, walked⟩
    · refine loop_finishes (fun _ => True) (fun s => (s.stack.map (walkWeight size)).sum)
        (fun s _ => subgraphStep_total s _)
        (fun s next _ ran => ⟨trivial, walkWeight_step shrinks ran⟩) trivial ?_ walked
      omega
    · cases walked

def remainingWork (store : EventStore) (known : Finset EventId) (state : SubgraphState) : Nat :=
  (state.stack.map fun entry => if entry.2 then 1 else 2).sum +
    ∑ id ∈ known with id ∉ state.authOf, 2 * (store.authEvents id).length

theorem remainingWork_step {known : Finset EventId} (stored : ∀ id, (store.fetch id).isSome → id ∈ known)
    (ran : subgraphStep store conflicted s = .ok (.inl next)) :
    remainingWork store known next < remainingWork store known s := by
  obtain ⟨id, expanded, stack, shape, turn⟩ := subgraphStep_cases ran
  unfold remainingWork
  rw [shape]
  rcases turn with ⟨rfl, rfl⟩ | ⟨rfl, _, rfl⟩ | ⟨rfl, fresh, rfl⟩
  · simp
  · simp
  · have kept := List.length_filter_le (fun auth => !decide (auth ∈ s.authOf)) (store.authEvents id)
    have opened : known.filter (fun other => other ∉ s.authOf.insert id (store.authEvents id)) =
        (known.filter fun other => other ∉ s.authOf).erase id := by
      ext other
      simp only [Finset.mem_filter, Finset.mem_erase, Finmap.mem_insert]
      tauto
    have spent : ∑ other ∈ (known.filter fun other => other ∉ s.authOf).erase id,
          2 * (store.authEvents other).length + 2 * (store.authEvents id).length =
        ∑ other ∈ known with other ∉ s.authOf, 2 * (store.authEvents other).length := by
      by_cases found : id ∈ known
      · exact Finset.sum_erase_add _ _ (Finset.mem_filter.mpr ⟨found, fresh⟩)
      · have absent : store.fetch id = none := by simpa using mt (stored id) found
        rw [Finset.erase_eq_of_notMem (by simp [found])]
        simp [EventStore.authEvents, absent]
    have pushed : ∀ ids : List EventId, (((ids.map fun auth => (auth, false)).reverse).map
        (fun entry => if entry.2 then 1 else 2)).sum = 2 * ids.length := by
      simp [Function.comp_def, Nat.mul_comm]
    rw [opened, List.map_append, List.sum_append, pushed, List.map_cons, List.sum_cons, List.map_cons, List.sum_cons]
    simp only [decide_not, ↓reduceIte, Bool.false_eq_true]
    omega

/-- The walk opens each event once, so it ends on cyclic graphs as well. -/
theorem conflictedStateSubgraph_exact (store : EventStore) (finite : Set.Finite {id | (store.fetch id).isSome})
    (conflicted : Finset EventId) : ∃ bound, ∀ order fuel, bound ≤ fuel → ∃ subgraph,
      conflictedStateSubgraph store conflicted order fuel = .ok subgraph ∧
      ((∀ id, ¬ TransGen store.AuthOf id id) → ∀ id, id ∈ subgraph ↔ InSubgraph store conflicted id) := by
  refine ⟨2 * conflicted.card + ∑ id ∈ finite.toFinset, 2 * (store.authEvents id).length + 1, ?_⟩
  intro order fuel enough
  have finishes : (loop (subgraphStep store conflicted) fuel (subgraphStart conflicted order)).Finishes := by
    refine loop_finishes (fun _ => True) (remainingWork store finite.toFinset)
      (fun state _ => subgraphStep_total state _)
      (fun _ _ _ ran => ⟨trivial, remainingWork_step (fun id found => by simpa using found) ran⟩) trivial ?_
    simp [remainingWork, subgraphStart, Function.comp_def, HashOrder.length_list, Finmap.notMem_empty]
    omega
  cases returned : conflictedStateSubgraph store conflicted order fuel with
  | error failure =>
    obtain rfl := conflictedStateSubgraph_failure returned
    rcases Outcome.bind_eq_error.mp returned with walked | ⟨_, _, walked⟩
    · exact absurd walked finishes
    · cases walked
  | ok subgraph =>
    refine ⟨subgraph, rfl, fun acyclic id => ⟨conflictedStateSubgraph_sound returned, ?_⟩⟩
    exact conflictedStateSubgraph_complete (EventStore.Acyclic.wellFounded ⟨finite, acyclic⟩) returned

theorem Sample.storeOf_acyclic (events : List Event) (rank : EventId → Nat)
    (falls : ∀ event ∈ events, ∀ auth ∈ event.authEvents, rank auth < rank event.eventId) :
    (storeOf events).Acyclic := by
  have older : ∀ auth id, (storeOf events).AuthOf auth id → rank auth < rank id := by
    intro auth id named
    unfold EventStore.AuthOf EventStore.authEvents at named
    cases found : (storeOf events).fetch id with
    | none => rw [found] at named; cases named
    | some event =>
      grind [storeOf]
  refine ⟨storeOf_finite events, fun id cycle => ?_⟩
  have falling := TransGen.lift rank older id id cycle
  rw [transGen_eq_self] at falling
  exact lt_irrefl _ falling

theorem conflictedStateSubgraph_exact_of_topics : ∃ bound, ∀ order fuel, bound ≤ fuel → ∃ subgraph,
    conflictedStateSubgraph Sample.topicStore {⟨"$s"⟩, ⟨"$t"⟩} order fuel = .ok subgraph ∧
      ∀ id, id ∈ subgraph ↔ InSubgraph Sample.topicStore {⟨"$s"⟩, ⟨"$t"⟩} id := by
  have acyclic : Sample.topicStore.Acyclic :=
    Sample.storeOf_acyclic _ (fun id => if id = ⟨"$c"⟩ then 0 else if id = ⟨"$j"⟩ then 1 else 2) (by decide)
  obtain ⟨bound, exact⟩ := conflictedStateSubgraph_exact Sample.topicStore acyclic.finite {⟨"$s"⟩, ⟨"$t"⟩}
  refine ⟨bound, fun order fuel enough => ?_⟩
  obtain ⟨subgraph, returned, members⟩ := exact order fuel enough
  exact ⟨subgraph, returned, members acyclic.2⟩

end Phantom.StateRes
