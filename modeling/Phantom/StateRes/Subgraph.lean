import Phantom.Lib.Loop
import Phantom.Lib.Schedule
import Phantom.StateRes.Store

namespace Phantom.StateRes

open Phantom.Lib Phantom.Matrix Relation

variable {order : HashOrder EventId}

structure SubgraphState where
  reaches : HashMap EventId Bool
  authOf : HashMap EventId (List EventId)
  stack : List (EventId × Bool)

section Subgraph

variable (store : EventStore) (conflicted : Finset EventId)

def reachesConflicted (state : SubgraphState) (id : EventId) : Bool :=
  decide (id ∈ conflicted) ||
    ((state.authOf.lookup id).getD []).any fun auth => (state.reaches.lookup auth).getD false

/-- One turn of the post-order walk; the head of the list is the top of the stack. -/
def subgraphStep (state : SubgraphState) : Outcome Error (SubgraphState ⊕ HashMap EventId Bool) :=
  match state.stack with
  | [] => .ok (.inr state.reaches)
  | (id, true) :: stack =>
    .ok (.inl { state with
      reaches := state.reaches.insert id (reachesConflicted conflicted state id), stack := stack })
  | (id, false) :: stack =>
    if id ∈ state.authOf then .ok (.inl { state with stack := stack })
    else
      let authEvents := store.authEvents id
      let unvisited := authEvents.filter (fun auth => auth ∉ state.authOf)
      .ok (.inl { state with
        stack := (unvisited.map fun auth => (auth, false)).reverse ++ (id, true) :: stack,
        authOf := state.authOf.insert id authEvents })

def subgraphStart (order : HashOrder EventId) : SubgraphState where
  reaches := ∅
  authOf := ∅
  stack := ((order.list conflicted).map fun id => (id, false)).reverse

def conflictedStateSubgraph (order : HashOrder EventId) (fuel : Nat) : Outcome Error (Finset EventId) := do
  let reaches ← loop (subgraphStep store conflicted) fuel (subgraphStart conflicted order)
  return reaches.keys.filter fun id => reaches.lookup id = some true

end Subgraph

variable {store : EventStore} {conflicted : Finset EventId}

def InSubgraph (store : EventStore) (conflicted : Finset EventId) (id : EventId) : Prop :=
  (∃ newer ∈ conflicted, store.Reaches newer id) ∧ ∃ older ∈ conflicted, store.Reaches id older

variable {state s : SubgraphState} {next : SubgraphState}

theorem subgraphStep_cases (ran : subgraphStep store conflicted s = .ok (.inl next)) :
    ∃ id expanded stack, s.stack = (id, expanded) :: stack ∧ ((expanded = true ∧ next = { s with
          reaches := s.reaches.insert id (reachesConflicted conflicted s id), stack := stack }) ∨
        (expanded = false ∧ id ∈ s.authOf ∧ next = { s with stack := stack }) ∨
        (expanded = false ∧ id ∉ s.authOf ∧ next = { s with
          stack := (((store.authEvents id).filter fun auth => auth ∉ s.authOf).map
            (fun auth => (auth, false))).reverse ++ (id, true) :: stack,
          authOf := s.authOf.insert id (store.authEvents id) })) := by
  grind [subgraphStep]

theorem subgraphStep_result {reaches : HashMap EventId Bool}
    (left : subgraphStep store conflicted s = .ok (.inr reaches)) : s.stack = [] ∧ reaches = s.reaches := by
  grind [subgraphStep]

structure WalkSound (store : EventStore) (conflicted : Finset EventId) (state : SubgraphState) : Prop where
  authOf : ∀ id auths, state.authOf.lookup id = some auths → auths = store.authEvents id
  stacked : ∀ entry ∈ state.stack, ∃ newer ∈ conflicted, store.Reaches newer entry.1
  finished : ∀ id ∈ state.reaches, ∃ newer ∈ conflicted, store.Reaches newer id
  verdict : ∀ id, state.reaches.lookup id = some true → ∃ older ∈ conflicted, store.Reaches id older

variable {id : EventId}

theorem reachesConflicted_sound (sound : WalkSound store conflicted s)
    (verdict : reachesConflicted conflicted s id = true) : ∃ older ∈ conflicted, store.Reaches id older := by
  rcases Bool.or_eq_true_iff.mp verdict with own | passed
  · exact ⟨id, of_decide_eq_true own, .refl⟩
  · obtain ⟨auth, mem, reached⟩ := List.any_eq_true.mp passed
    cases expanded : s.authOf.lookup id with
    | none => rw [expanded] at mem; cases mem
    | some auths =>
      rw [expanded, Option.getD_some, sound.authOf id auths expanded] at mem
      cases held : s.reaches.lookup auth with
      | none => rw [held] at reached; cases reached
      | some value =>
        rw [held, Option.getD_some] at reached
        subst reached
        obtain ⟨older, conflict, path⟩ := sound.verdict auth held
        exact ⟨older, conflict, path.tail mem⟩

theorem walkSound_step (sound : WalkSound store conflicted s)
    (ran : subgraphStep store conflicted s = .ok (.inl next)) : WalkSound store conflicted next := by
  obtain ⟨id, expanded, stack, shape, turn⟩ := subgraphStep_cases ran
  have stacked := sound.stacked
  rw [shape] at stacked
  have top := stacked (id, expanded) (List.mem_cons_self ..)
  have below : ∀ entry ∈ stack, ∃ newer ∈ conflicted, store.Reaches newer entry.1 :=
    fun entry mem => stacked entry (List.mem_cons_of_mem _ mem)
  rcases turn with ⟨_, rfl⟩ | ⟨_, _, rfl⟩ | ⟨_, _, rfl⟩
  · refine ⟨sound.authOf, below, ?_, ?_⟩
    · grind [Finmap.mem_insert, WalkSound.finished]
    · grind [HashMap.lookup_insert_eq, reachesConflicted_sound, WalkSound.verdict]
  · exact ⟨sound.authOf, below, sound.finished, sound.verdict⟩
  · refine ⟨?_, ?_, sound.finished, sound.verdict⟩
    · grind [HashMap.lookup_insert_eq, WalkSound.authOf]
    · intro entry mem
      rcases List.mem_append.mp mem with pushed | mem
      · rw [List.mem_reverse, List.mem_map] at pushed
        obtain ⟨auth, listed, rfl⟩ := pushed
        obtain ⟨newer, conflict, path⟩ := top
        exact ⟨newer, conflict, path.head (List.mem_filter.mp listed).1⟩
      · grind

theorem walkSound_start : WalkSound store conflicted (subgraphStart conflicted order) := by
  refine ⟨?_, ?_, ?_, ?_⟩
  · intro id auths held
    cases held
  · intro entry mem
    obtain ⟨id, listed, rfl⟩ := List.mem_map.mp (List.mem_reverse.mp mem)
    exact ⟨id, (HashOrder.mem_list _).mp listed, .refl⟩
  · intro id mem
    exact absurd mem Finmap.notMem_empty
  · intro id held
    cases held

theorem conflictedStateSubgraph_sound {fuel : Nat} {subgraph : Finset EventId}
    (returned : conflictedStateSubgraph store conflicted order fuel = .ok subgraph) (mem : id ∈ subgraph) :
    InSubgraph store conflicted id := by
  obtain ⟨reaches, walked, made⟩ := Outcome.bind_eq_ok.mp returned
  cases made
  obtain ⟨listed, verdict⟩ := Finset.mem_filter.mp mem
  have sound := loop_invariant (WalkSound store conflicted)
    (fun reaches => (∀ id ∈ reaches, ∃ newer ∈ conflicted, store.Reaches newer id) ∧
      ∀ id, reaches.lookup id = some true → ∃ older ∈ conflicted, store.Reaches id older)
    (fun _ _ kept ran => walkSound_step kept ran) fun _ _ kept left => by
      rw [(subgraphStep_result left).2]
      exact ⟨kept.finished, kept.verdict⟩
    walked walkSound_start
  exact ⟨sound.1 id (Finmap.mem_keys.mp listed), sound.2 id verdict⟩

end Phantom.StateRes
