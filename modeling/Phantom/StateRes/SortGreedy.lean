import Phantom.StateRes.SortSchedule
import Phantom.StateRes.Store

namespace Phantom.StateRes

open Phantom.Lib Phantom.Matrix Relation

section Greedy

variable {Id Power : Type} [LinearOrder Id] [LinearOrder Power] {schedule : SortSchedule Id}
  {keyFn : Id → Outcome Error (Power × Nat)} {graph g : Graph Id} {state s : SortState Id Power}
variable {heap : List (TieBreaker Id Power)}

def nodeRank (key : Id → Power × Nat) (node : Id) : Powerᵒᵈ ×ₗ ℕ ×ₗ Id :=
  TieBreaker.rank ⟨(key node).1, (key node).2, node⟩

/-- The node comes next after the given ones: its edges are among them, and it ranks least of those
    of which that holds. -/
def Next (graph : Graph Id) (key : Id → Power × Nat) (earlier : List Id) (node : Id) : Prop :=
  (∀ edge ∈ edgesOf graph node, edge ∈ earlier) ∧
    ∀ other ∈ graph, other ∉ earlier → (∀ edge ∈ edgesOf graph other, edge ∈ earlier) →
      nodeRank key node ≤ nodeRank key other

structure Canonical (graph : Graph Id) (key : Id → Power × Nat) (sorted : List Id) : Prop where
  nodup : sorted.Nodup
  complete : ∀ node, node ∈ sorted ↔ node ∈ graph
  next : ∀ index node, sorted[index]? = some node → Next graph key (sorted.take index) node

structure Ordered (keyFn : Id → Outcome Error (Power × Nat)) (heap : List (TieBreaker Id Power)) : Prop where
  sorted : heap.Pairwise TieBreaker.Before
  keyed : ∀ item ∈ heap, keyFn item.eventId = .ok (item.powerLevel, item.originServerTs)

variable {item : TieBreaker Id Power} {node : Id}

theorem Ordered.push (ordered : Ordered keyFn heap) (made : tieBreaker keyFn node = .ok item) :
    Ordered keyFn (pushHeap heap item) := by
  refine ⟨ordered.sorted.orderedInsert _ _, ?_⟩
  intro other mem
  rcases (List.mem_orderedInsert TieBreaker.Before).mp mem with rfl | mem
  · obtain ⟨⟨power, ts⟩, read, made⟩ := Outcome.bind_eq_ok.mp made
    cases made
    exact read
  · exact ordered.keyed other mem

theorem ordered_start (made : zeroOutdegree schedule keyFn g = .ok heap) : Ordered keyFn heap := by
  refine foldlM_invariant (Ordered keyFn) ?_ made ⟨.nil, nofun⟩
  intro first node last _ ordered pushed
  obtain ⟨item, tied, pushed⟩ := Outcome.bind_eq_ok.mp pushed
  cases pushed
  exact ordered.push tied

theorem ordered_released {parents : List Id} {first last : Graph Id × List (TieBreaker Id Power)}
    (released : parents.foldlM (releaseParent keyFn node) first = .ok last) (ordered : Ordered keyFn first.2) :
    Ordered keyFn last.2 := by
  refine foldlM_invariant (fun s => Ordered keyFn s.2) ?_ released ordered
  intro before parent after _ ordered ran
  obtain ⟨out, _, ran⟩ := Outcome.bind_eq_ok.mp ran
  split at ran
  · obtain ⟨item, tied, ran⟩ := Outcome.bind_eq_ok.mp ran
    cases ran
    exact ordered.push tied
  · cases ran
    exact ordered

structure Greedy (keyFn : Id → Outcome Error (Power × Nat)) (graph : Graph Id) (key : Id → Power × Nat)
    (state : SortState Id Power) : Prop extends SortInv graph state where
  ordered : Ordered keyFn state.heap
  next : ∀ index node, state.sorted[index]? = some node → Next graph key (state.sorted.take index) node

variable {key : Id → Power × Nat}

theorem next_of_popped (keyed : ∀ node ∈ g, keyFn node = .ok (key node)) (greedy : Greedy keyFn g key s)
    (shape : s.heap = item :: heap) : Next g key s.sorted item.eventId := by
  have ranked : ∀ other ∈ s.heap, other.rank = nodeRank key other.eventId := by
    intro other mem
    have known := (greedy.released other.eventId).mp (by simpa using Or.inr ⟨other, mem, rfl⟩)
    have read := (greedy.ordered.keyed other mem).symm.trans (keyed _ known.1)
    rw [nodeRank, ← Except.ok.inj read]
  have top : item ∈ s.heap := by simp [shape]
  refine ⟨?_, ?_⟩
  · intro edge mem
    have released := (greedy.released item.eventId).mp (by simp [shape])
    exact List.mem_toFinset.mp (released.2 mem)
  · intro other known fresh ready
    have waiting := (greedy.released other).mpr ⟨known, fun edge mem => List.mem_toFinset.mpr (ready edge mem)⟩
    obtain ⟨holder, mem, rfl⟩ := List.mem_map.mp ((List.mem_append.mp waiting).resolve_left fresh)
    rw [← ranked item top, ← ranked holder mem]
    rw [shape] at mem
    rcases List.mem_cons.mp mem with rfl | mem
    · exact le_rfl
    · have sorted := greedy.ordered.sorted
      rw [shape] at sorted
      exact (List.pairwise_cons.mp sorted).1 holder mem

theorem greedy_step (keyed : ∀ node ∈ g, keyFn node = .ok (key node)) {next : SortState Id Power}
    (greedy : Greedy keyFn g key s) (ran : sortStep schedule keyFn (reverseGraph schedule g) s = .ok (.inl next)) :
    Greedy keyFn g key next := by
  obtain ⟨item, heap, parents, shape, _, released, grown⟩ := sortStep_popped ran
  have ordered := greedy.ordered
  rw [shape] at ordered
  refine ⟨(sortInv_step greedy.toSortInv ran).1, ?_, ?_⟩
  · exact ordered_released released ⟨(List.pairwise_cons.mp ordered.sorted).2,
      fun other mem => ordered.keyed other (List.mem_cons_of_mem _ mem)⟩
  · rw [grown]
    intro index node found
    rcases Nat.lt_trichotomy index s.sorted.length with earlier | last | past
    · rw [List.getElem?_append_left earlier] at found
      rw [List.take_append_of_le_length (Nat.le_of_lt earlier)]
      exact greedy.next index node found
    · subst last
      simp only [List.getElem?_concat_length, Option.some.injEq] at found
      subst found
      simpa using next_of_popped keyed greedy shape
    · rw [List.getElem?_eq_none (by simp; omega)] at found
      cases found

omit [LinearOrder Power] in
theorem mem_sorted_of_acyclic (inv : SortInv g s) (empty : s.heap = [])
    (closed : ∀ node, ∀ edge ∈ edgesOf g node, edge ∈ g)
    (acyclic : ∀ node, ¬ TransGen (fun edge node => edge ∈ edgesOf g node) node node) (known : node ∈ g) :
    node ∈ s.sorted := by
  have finite : {node | ∃ edge, edge ∈ edgesOf g node}.Finite :=
    g.keys.finite_toSet.subset fun node ⟨edge, mem⟩ => Finmap.mem_keys.mpr (mem_of_edge mem)
  induction node using (wellFounded_of_finite finite acyclic).induction with
  | _ node ih =>
    have waiting := (inv.released node).mpr
      ⟨known, fun edge mem => List.mem_toFinset.mpr (ih edge mem (closed node edge mem))⟩
    simpa [empty] using waiting

variable {fuel : Nat}

theorem canonical_of_sorted (keyed : ∀ node ∈ g, keyFn node = .ok (key node))
    (closed : ∀ node, ∀ edge ∈ edgesOf g node, edge ∈ g)
    (acyclic : ∀ node, ¬ TransGen (fun edge node => edge ∈ edgesOf g node) node node) {sorted : List Id}
    (returned : lexicographicalTopologicalSort schedule keyFn g fuel = .ok sorted) : Canonical g key sorted := by
  obtain ⟨heap, started, looped⟩ := Outcome.bind_eq_ok.mp returned
  refine loop_invariant (Greedy keyFn g key) (Canonical g key)
    (fun _ _ greedy ran => greedy_step keyed greedy ran) ?_ looped
    ⟨sortInv_start started, ordered_start started, by simp⟩
  intro s result greedy left
  obtain ⟨empty, rfl⟩ := sortStep_result left
  exact ⟨(List.nodup_append.mp greedy.nodup).1,
    fun _ => ⟨greedy.sorted_mem, mem_sorted_of_acyclic greedy.toSortInv empty closed acyclic⟩, greedy.next⟩

theorem lexicographicalTopologicalSort_returns (schedule : SortSchedule Id)
    (keyed : ∀ node ∈ g, keyFn node = .ok (key node)) (enough : g.keys.card < fuel) :
    ∃ sorted, lexicographicalTopologicalSort schedule keyFn g fuel = .ok sorted := by
  cases returned : lexicographicalTopologicalSort schedule keyFn g fuel with
  | ok sorted => exact ⟨sorted, rfl⟩
  | error failure =>
    rcases lexicographicalTopologicalSort_failure returned with rfl | ⟨node, mem, failed⟩
    · refine absurd returned (lexicographicalTopologicalSort_finishes (fun node mem => ?_) schedule enough)
      rw [keyed node mem]
      exact .ok _
    · rw [keyed node mem] at failed
      cases failed

theorem lexicographicalTopologicalSort_canonical (schedule : SortSchedule Id)
    (keyed : ∀ node ∈ graph, keyFn node = .ok (key node)) (closed : ∀ node, ∀ edge ∈ edgesOf graph node, edge ∈ graph)
    (acyclic : ∀ node, ¬ TransGen (fun edge node => edge ∈ edgesOf graph node) node node) {fuel : Nat}
    (enough : graph.keys.card < fuel) :
    ∃ sorted, lexicographicalTopologicalSort schedule keyFn graph fuel = .ok sorted ∧ Canonical graph key sorted := by
  obtain ⟨sorted, returned⟩ := lexicographicalTopologicalSort_returns schedule keyed enough
  exact ⟨sorted, returned, canonical_of_sorted keyed closed acyclic returned⟩

end Greedy

namespace Sample

def powerGraph : Graph ℕ := HashMap.collect [(1, {0}), (3, {2, 0}), (2, {0}), (0, ∅), (4, {0})]

def ascending : HashOrder ℕ := .ascending id Function.injective_id

theorem powerGraph_falls : ∀ node ∈ powerGraph.keys, ∀ edge ∈ edgesOf powerGraph node,
    edge < node ∧ edge ∈ powerGraph := by decide +kernel

theorem lexicographicalTopologicalSort_canonical_of_five :
    ∃ sorted, lexicographicalTopologicalSort ⟨ascending, fun _ => ascending, fun _ => ascending⟩
      (fun _ => .ok ((0 : Int), 0)) powerGraph 6 = .ok sorted ∧
      Canonical powerGraph (fun _ => ((0 : Int), 0)) sorted := by
  have falls : ∀ node, ∀ edge ∈ edgesOf powerGraph node, edge < node ∧ edge ∈ powerGraph :=
    fun node edge member => powerGraph_falls node (Finmap.mem_keys.mpr (mem_of_edge member)) edge member
  refine lexicographicalTopologicalSort_canonical _ (fun _ _ => rfl) (fun node edge member => (falls node edge member).2)
    ?_ (by decide +kernel)
  intro node cycle
  have below : TransGen (· < ·) node node := cycle.lift id fun edge node member => (falls node edge member).1
  rw [transGen_eq_self] at below
  exact lt_irrefl node below

end Sample

end Phantom.StateRes
