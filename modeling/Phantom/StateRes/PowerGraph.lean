import Phantom.Lib.Fold
import Phantom.StateRes.Sort
import Phantom.StateRes.Store

namespace Phantom.StateRes

open Phantom.Lib Phantom.Matrix Relation

section Graph

variable (store : EventStore) (authDiff : Finset EventId)

def diffAuthEvents (id : EventId) : List EventId :=
  (store.authEvents id).filter fun auth => auth ∈ authDiff

/-- One turn of the walk over the auth chain; the head of the list is the top of the stack. -/
def graphStep (state : List EventId × Graph EventId) :
    Outcome Error (List EventId × Graph EventId ⊕ Graph EventId) :=
  match state.1 with
  | [] => .ok (.inr state.2)
  | id :: stack =>
    let graph := state.2.insert id (edgesOf state.2 id)
    let edges := diffAuthEvents store authDiff id
    let unvisited := edges.filter (fun auth => auth ∉ graph)
    .ok (.inl (unvisited.reverse ++ stack, graph.insert id (edgesOf graph id ∪ edges.toFinset)))

def addEventAndAuthChainToGraph (fuel : Nat) (graph : Graph EventId) (id : EventId) :
    Outcome Error (Graph EventId) :=
  loop (graphStep store authDiff) fuel ([id], graph)

def powerGraph (fuel : Nat) (eventsToSort : List EventId) : Outcome Error (Graph EventId) :=
  eventsToSort.foldlM (addEventAndAuthChainToGraph store authDiff fuel) ∅

end Graph

section Spec

variable {store : EventStore} {authDiff : Finset EventId}
variable {graph g : Graph EventId} {id : EventId} {roots : List EventId}

def FoundFrom (store : EventStore) (authDiff : Finset EventId) (roots : List EventId) (id : EventId) : Prop :=
  ∃ root ∈ roots, ReflTransGen (fun newer older => older ∈ diffAuthEvents store authDiff newer) root id

structure GraphSpec (store : EventStore) (authDiff : Finset EventId) (roots : List EventId)
    (graph : Graph EventId) : Prop where
  nodes : ∀ id, id ∈ graph ↔ FoundFrom store authDiff roots id
  edges : ∀ id ∈ graph, edgesOf graph id = (diffAuthEvents store authDiff id).toFinset

structure GraphInv (store : EventStore) (authDiff : Finset EventId) (roots : List EventId)
    (state : List EventId × Graph EventId) : Prop where
  stacked : ∀ id ∈ state.1, FoundFrom store authDiff roots id
  found : ∀ id ∈ state.2, FoundFrom store authDiff roots id
  edges : ∀ id ∈ state.2, edgesOf state.2 id = (diffAuthEvents store authDiff id).toFinset
  closed : ∀ id ∈ state.2, ∀ auth ∈ diffAuthEvents store authDiff id, auth ∈ state.2 ∨ auth ∈ state.1
  rooted : ∀ id ∈ roots, id ∈ state.2 ∨ id ∈ state.1

theorem edgesOf_of_not_mem (absent : id ∉ g) : edgesOf g id = ∅ := by
  rw [edgesOf, Finmap.lookup_eq_none.mpr absent, Option.getD_none]

theorem graphStep_cons {stack : List EventId} : graphStep store authDiff (id :: stack, g) = .ok (.inl
      (((diffAuthEvents store authDiff id).filter fun auth => ¬ (auth = id ∨ auth ∈ g)).reverse ++ stack,
        g.insert id (edgesOf g id ∪ (diffAuthEvents store authDiff id).toFinset))) := by
  unfold graphStep
  simp only [Finmap.mem_insert, edgesOf_insert, ↓reduceIte, Finmap.insert_insert]

theorem graphInv_step {s next : List EventId × Graph EventId} (inv : GraphInv store authDiff roots s)
    (ran : graphStep store authDiff s = .ok (.inl next)) : GraphInv store authDiff roots next := by
  obtain ⟨stack, g⟩ := s
  cases stack with
  | nil => cases ran
  | cons id stack =>
    rw [graphStep_cons] at ran
    cases ran
    have top := inv.stacked id (List.mem_cons_self ..)
    constructor
    · intro other listed
      rcases List.mem_append.mp listed with pushed | listed
      · obtain ⟨root, rooted, path⟩ := top
        exact ⟨root, rooted, path.tail (List.mem_filter.mp (List.mem_reverse.mp pushed)).1⟩
      · exact inv.stacked other (List.mem_cons_of_mem _ listed)
    · grind [Finmap.mem_insert, GraphInv.found]
    · intro other listed
      rw [edgesOf_insert]
      split
      · rename_i same
        subst same
        by_cases known : other ∈ g
        · have recorded := inv.edges other known
          grind
        · rw [edgesOf_of_not_mem known, Finset.empty_union]
      · rename_i ne
        exact inv.edges other ((Finmap.mem_insert.mp listed).resolve_left ne)
    · intro other listed auth edge
      by_cases known : auth = id ∨ auth ∈ g
      · exact Or.inl (Finmap.mem_insert.mpr known)
      · rcases Finmap.mem_insert.mp listed with same | listed
        · grind
        · rcases inv.closed other listed auth edge with recorded | waiting
          · exact absurd (Or.inr recorded) known
          · grind
    · intro other rooted
      rcases inv.rooted other rooted with recorded | waiting
      · exact Or.inl (Finmap.mem_insert.mpr (Or.inr recorded))
      · grind [Finmap.mem_insert]

theorem graphInv_start (id : EventId) (spec : GraphSpec store authDiff roots g) :
    GraphInv store authDiff (roots ++ [id]) ([id], g) := by
  have more : ∀ other, FoundFrom store authDiff roots other → FoundFrom store authDiff (roots ++ [id]) other := by
    intro other found
    obtain ⟨root, rooted, path⟩ := found
    exact ⟨root, List.mem_append_left _ rooted, path⟩
  refine ⟨?_, ?_, spec.edges, ?_, ?_⟩
  · intro other listed
    rw [List.mem_singleton] at listed
    exact ⟨id, by simp, listed ▸ .refl⟩
  · grind [GraphSpec.nodes]
  · intro other listed auth edge
    obtain ⟨root, rooted, path⟩ := (spec.nodes other).mp listed
    exact Or.inl ((spec.nodes auth).mpr ⟨root, rooted, path.tail edge⟩)
  · intro other rooted
    rcases List.mem_append.mp rooted with rooted | last
    · exact Or.inl ((spec.nodes other).mpr ⟨other, rooted, .refl⟩)
    · exact Or.inr last

theorem graphInv_done (inv : GraphInv store authDiff roots ([], g)) : GraphSpec store authDiff roots g := by
  refine ⟨?_, inv.edges⟩
  intro id
  constructor
  · exact inv.found id
  · intro found
    obtain ⟨root, rooted, path⟩ := found
    induction path with
    | refl => exact (inv.rooted root rooted).resolve_right (List.not_mem_nil)
    | tail _ edge ih => exact (inv.closed _ ih _ edge).resolve_right (List.not_mem_nil)

theorem addEventAndAuthChainToGraph_spec {result : Graph EventId}
    {fuel : Nat} (spec : GraphSpec store authDiff roots g)
    (returned : addEventAndAuthChainToGraph store authDiff fuel g id = .ok result) :
    GraphSpec store authDiff (roots ++ [id]) result := by
  refine loop_invariant (GraphInv store authDiff (roots ++ [id]))
    (GraphSpec store authDiff (roots ++ [id])) (fun _ _ inv ran => graphInv_step inv ran) ?_ returned
    (graphInv_start id spec)
  intro s final inv left
  obtain ⟨stack, g⟩ := s
  cases stack with
  | nil =>
    cases left
    exact graphInv_done inv
  | cons id stack => cases left

theorem powerGraph_spec {fuel : Nat} {events : List EventId}
    (returned : powerGraph store authDiff fuel events = .ok g) : GraphSpec store authDiff events g := by
  have folded : ∀ (rest roots : List EventId) (first : Graph EventId), GraphSpec store authDiff roots first →
      rest.foldlM (addEventAndAuthChainToGraph store authDiff fuel) first = .ok g →
      GraphSpec store authDiff (roots ++ rest) g := by
    intro rest
    induction rest with
    | nil =>
      intro roots first spec made
      cases made
      simpa using spec
    | cons id rest ih =>
      intro roots first spec made
      obtain ⟨next, added, made⟩ := Outcome.bind_eq_ok.mp made
      have later := ih (roots ++ [id]) next (addEventAndAuthChainToGraph_spec spec added) made
      simpa using later
  refine folded events [] ∅ ⟨?_, ?_⟩ returned
  · intro id
    simp [FoundFrom, Finmap.notMem_empty]
  · intro id mem
    exact absurd mem Finmap.notMem_empty

theorem GraphSpec.unique {others : List EventId} {left right : Graph EventId}
    (same : ∀ id, id ∈ roots ↔ id ∈ others) (leftSpec : GraphSpec store authDiff roots left)
    (rightSpec : GraphSpec store authDiff others right) : left = right := by
  have nodes : ∀ id, id ∈ left ↔ id ∈ right := by
    intro id
    rw [leftSpec.nodes, rightSpec.nodes]
    simp only [FoundFrom, same]
  refine Finmap.ext_lookup ?_
  intro id
  by_cases mem : id ∈ left
  · rw [lookup_of_mem mem, lookup_of_mem ((nodes id).mp mem), leftSpec.edges id mem,
      rightSpec.edges id ((nodes id).mp mem)]
  · grind [Finmap.lookup_eq_none]

theorem FoundFrom.mem_authDiff (found : FoundFrom store authDiff roots id) (sorted : ∀ root ∈ roots, root ∈ authDiff) :
    id ∈ authDiff := by
  obtain ⟨root, rooted, path⟩ := found
  rcases ReflTransGen.cases_tail path with same | ⟨_, _, edge⟩
  · exact same ▸ sorted root rooted
  · exact of_decide_eq_true (List.mem_filter.mp edge).2

end Spec

end Phantom.StateRes
