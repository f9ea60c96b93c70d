import Mathlib.Data.Prod.Lex
import Phantom.Lib.Loop
import Phantom.Lib.Schedule
import Phantom.StateRes.RoomVersion

namespace Phantom.StateRes

open Phantom.Lib Phantom.Matrix

abbrev Graph (Id : Type) := HashMap Id (Finset Id)

section Lexicographical

variable {Id Power : Type} [LinearOrder Id] [LinearOrder Power]

def edgesOf (graph : Graph Id) (node : Id) : Finset Id := (graph.lookup node).getD ∅

structure TieBreaker (Id Power : Type) where
  powerLevel : Power
  originServerTs : Nat
  eventId : Id

def TieBreaker.rank (item : TieBreaker Id Power) : Powerᵒᵈ ×ₗ ℕ ×ₗ Id :=
  toLex (OrderDual.toDual item.powerLevel, toLex (item.originServerTs, item.eventId))

def TieBreaker.Before (left right : TieBreaker Id Power) : Prop := left.rank ≤ right.rank

instance : DecidableRel (α := TieBreaker Id Power) TieBreaker.Before := fun left right =>
  inferInstanceAs (Decidable (left.rank ≤ right.rank))

structure SortSchedule (Id : Type) where
  nodes : HashOrder Id
  edges : Id → HashOrder Id
  parents : Id → HashOrder Id

variable (schedule : SortSchedule Id) (keyFn : Id → Outcome Error (Power × Nat)) (graph : Graph Id)

def addReverseEdges (reverse : Graph Id) (node : Id) : Graph Id :=
  ((schedule.edges node).list (edgesOf graph node)).foldl
    (fun reverse edge => reverse.insert edge (insert node (edgesOf reverse edge)))
    (reverse.insert node (edgesOf reverse node))

def reverseGraph : Graph Id :=
  (schedule.nodes.list graph.keys).foldl (addReverseEdges schedule graph) ∅

def tieBreaker (node : Id) : Outcome Error (TieBreaker Id Power) := do
  let (powerLevel, originServerTs) ← keyFn node
  return { powerLevel := powerLevel, originServerTs := originServerTs, eventId := node }

def pushHeap (heap : List (TieBreaker Id Power)) (item : TieBreaker Id Power) :
    List (TieBreaker Id Power) :=
  heap.orderedInsert TieBreaker.Before item

def zeroOutdegree : Outcome Error (List (TieBreaker Id Power)) :=
  ((schedule.nodes.list graph.keys).filter fun node => edgesOf graph node = ∅).foldlM
    (fun heap node => do return pushHeap heap (← tieBreaker keyFn node)) []

structure SortState (Id Power : Type) where
  outdegreeMap : Graph Id
  heap : List (TieBreaker Id Power)
  sorted : List Id

def releaseParent (node : Id) (state : Graph Id × List (TieBreaker Id Power)) (parent : Id) :
    Outcome Error (Graph Id × List (TieBreaker Id Power)) := do
  let out ← .expect "outdegree_map knows of all referenced EventIds" (state.1.lookup parent)
  let outdegreeMap := state.1.insert parent (out.erase node)
  if out.erase node = ∅ then return (outdegreeMap, pushHeap state.2 (← tieBreaker keyFn parent))
  else return (outdegreeMap, state.2)

def sortStep (reverse : Graph Id) (state : SortState Id Power) :
    Outcome Error (SortState Id Power ⊕ List Id) :=
  match state.heap with
  | [] => .ok (.inr state.sorted)
  | item :: heap => do
    let parents ← .expect "EventId in heap is also in reverse_graph" (reverse.lookup item.eventId)
    let (outdegreeMap, heap) ← ((schedule.parents item.eventId).list parents).foldlM
      (releaseParent keyFn item.eventId) (state.outdegreeMap, heap)
    return .inl { outdegreeMap := outdegreeMap, heap := heap, sorted := state.sorted ++ [item.eventId] }

def lexicographicalTopologicalSort (fuel : Nat) : Outcome Error (List Id) := do
  let heap ← zeroOutdegree schedule keyFn graph
  loop (sortStep schedule keyFn (reverseGraph schedule graph)) fuel
    { outdegreeMap := graph, heap := heap, sorted := [] }

end Lexicographical

section Reverse

variable {Id : Type} [LinearOrder Id] {schedule : SortSchedule Id} {g : Graph Id}

theorem mem_of_edge {node edge : Id} (edges : edge ∈ edgesOf g node) : node ∈ g := by
  unfold edgesOf at edges
  cases held : g.lookup node with
  | none => rw [held] at edges; simp at edges
  | some set => exact Finmap.mem_of_lookup_eq_some held

theorem lookup_of_mem {node : Id} (mem : node ∈ g) : g.lookup node = some (edgesOf g node) := by
  grind [Finmap.mem_iff, edgesOf]

variable (reverse : Graph Id)

theorem edgesOf_insert (node other : Id) (edges : Finset Id) :
    edgesOf (reverse.insert node edges) other = if other = node then edges else edgesOf reverse other := by
  unfold edgesOf
  rw [HashMap.lookup_insert_eq]
  split <;> rfl

theorem edgesOf_addReverseEdges (node edge parent : Id) :
    parent ∈ edgesOf (addReverseEdges schedule g reverse node) edge ↔
      parent ∈ edgesOf reverse edge ∨ (parent = node ∧ edge ∈ edgesOf g node) := by
  have folded : ∀ (edges : List Id) (start : Graph Id), parent ∈ edgesOf (edges.foldl (fun reverse edge =>
        reverse.insert edge (insert node (edgesOf reverse edge))) start) edge ↔
      parent ∈ edgesOf start edge ∨ (parent = node ∧ edge ∈ edges) := by
    intro edges
    induction edges with
    | nil => simp
    | cons first edges ih =>
      intro start
      rw [List.foldl_cons, ih, edgesOf_insert]
      by_cases same : edge = first
      · subst same
        simp only [↓reduceIte, Finset.mem_insert, List.mem_cons, true_or, and_true]
        tauto
      · simp [same]
  grind [edgesOf_insert, HashOrder.mem_list, addReverseEdges]

theorem mem_addReverseEdges (node edge : Id) : edge ∈ addReverseEdges schedule g reverse node ↔
      edge ∈ reverse ∨ edge = node ∨ edge ∈ edgesOf g node := by
  have folded : ∀ (edges : List Id) (start : Graph Id), edge ∈ edges.foldl (fun reverse edge =>
        reverse.insert edge (insert node (edgesOf reverse edge))) start ↔ edge ∈ start ∨ edge ∈ edges := by
    intro edges
    induction edges with
    | nil => simp
    | cons first edges ih =>
      grind [Finmap.mem_insert]
  unfold addReverseEdges
  rw [folded, Finmap.mem_insert, HashOrder.mem_list]
  tauto

theorem edgesOf_reverseGraph (schedule : SortSchedule Id) (edge parent : Id) :
    parent ∈ edgesOf (reverseGraph schedule g) edge ↔ edge ∈ edgesOf g parent := by
  have folded : ∀ (nodes : List Id) (start : Graph Id),
      parent ∈ edgesOf (nodes.foldl (addReverseEdges schedule g) start) edge ↔
        parent ∈ edgesOf start edge ∨ (parent ∈ nodes ∧ edge ∈ edgesOf g parent) := by
    intro nodes
    induction nodes with
    | nil => simp
    | cons node nodes ih =>
      grind [edgesOf_addReverseEdges]
  unfold reverseGraph
  rw [folded, HashOrder.mem_list, Finmap.mem_keys]
  constructor
  · rintro (empty | held)
    · simp [edgesOf] at empty
    · exact held.2
  · intro edge
    exact Or.inr ⟨mem_of_edge edge, edge⟩

theorem mem_reverseGraph (edge : Id) : edge ∈ reverseGraph schedule g ↔ edge ∈ g ∨ ∃ node, edge ∈ edgesOf g node := by
  have folded : ∀ (nodes : List Id) (start : Graph Id), edge ∈ nodes.foldl (addReverseEdges schedule g) start ↔
        edge ∈ start ∨ edge ∈ nodes ∨ ∃ node ∈ nodes, edge ∈ edgesOf g node := by
    intro nodes
    induction nodes with
    | nil => simp
    | cons node nodes ih =>
      intro start
      rw [List.foldl_cons, ih, mem_addReverseEdges]
      simp only [List.mem_cons, exists_eq_or_imp]
      tauto
  grind [Finmap.notMem_empty, HashOrder.mem_list, Finmap.mem_keys, mem_of_edge, reverseGraph]

theorem reverseGraph_schedule (schedule other : SortSchedule Id) (g : Graph Id) :
    reverseGraph schedule g = reverseGraph other g := by
  refine Finmap.ext_lookup ?_
  intro node
  by_cases mem : node ∈ reverseGraph schedule g
  · have others : node ∈ reverseGraph other g := (mem_reverseGraph node).mpr ((mem_reverseGraph node).mp mem)
    rw [lookup_of_mem mem, lookup_of_mem others]
    congr 1
    ext parent
    rw [edgesOf_reverseGraph, edgesOf_reverseGraph]
  · grind [mem_reverseGraph, Finmap.lookup_eq_none]

end Reverse

end Phantom.StateRes
