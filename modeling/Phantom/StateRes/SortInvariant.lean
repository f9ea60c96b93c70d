import Phantom.Lib.Fold
import Phantom.StateRes.Sort

namespace Phantom.StateRes

open Phantom.Lib Phantom.Matrix

section Keys

variable {Id Power : Type} {keyFn : Id → Outcome Error (Power × Nat)}

theorem TieBreaker.rank_injective : Function.Injective (@TieBreaker.rank Id Power) := by
  intro left right same
  cases left
  cases right
  grind [EmbeddingLike.apply_eq_iff_eq, TieBreaker.rank]

theorem tieBreaker_eventId {node : Id} {item : TieBreaker Id Power}
    (made : tieBreaker keyFn node = .ok item) : item.eventId = node := by
  obtain ⟨⟨power, ts⟩, _, made⟩ := Outcome.bind_eq_ok.mp made
  cases made
  rfl

def UniformFailure (keyFn : Id → Outcome Error (Power × Nat)) : Prop :=
  ∀ left right first second, keyFn left = .error first → keyFn right = .error second → first = second

theorem tieBreaker_bind_comm {β : Type} (uniform : UniformFailure keyFn) (left right : Id)
    (next : TieBreaker Id Power → TieBreaker Id Power → Outcome Error β) :
    (do next (← tieBreaker keyFn left) (← tieBreaker keyFn right)) =
      (do
        let right ← tieBreaker keyFn right
        let left ← tieBreaker keyFn left
        next left right) := by
  unfold tieBreaker
  cases first : keyFn left with
  | ok leftKey =>
    cases keyFn right <;> rfl
  | error leftFailure =>
    cases second : keyFn right with
    | ok rightKey => rfl
    | error rightFailure =>
      rw [uniform left right leftFailure rightFailure first second]
      rfl

end Keys

section Lexicographical

variable {Id Power : Type} [LinearOrder Id] [LinearOrder Power] {schedule : SortSchedule Id}
  {keyFn : Id → Outcome Error (Power × Nat)} {graph g : Graph Id}
variable {state s : SortState Id Power} {heap : List (TieBreaker Id Power)}

instance : Std.Total (α := TieBreaker Id Power) TieBreaker.Before :=
  ⟨fun left right => le_total left.rank right.rank⟩

instance : IsTrans (TieBreaker Id Power) TieBreaker.Before :=
  ⟨fun _ _ _ first second => le_trans first second⟩

instance : Std.Antisymm (α := TieBreaker Id Power) TieBreaker.Before :=
  ⟨fun _ _ first second => TieBreaker.rank_injective (le_antisymm first second)⟩

theorem pushHeap_comm (heap : List (TieBreaker Id Power)) (left right : TieBreaker Id Power) :
    pushHeap (pushHeap heap left) right = pushHeap (pushHeap heap right) left :=
  orderedInsert_comm TieBreaker.Before left right heap

theorem pushHeap_ids (heap : List (TieBreaker Id Power)) (item : TieBreaker Id Power) :
    ((pushHeap heap item).map TieBreaker.eventId).Perm (item.eventId :: heap.map TieBreaker.eventId) :=
  (List.perm_orderedInsert TieBreaker.Before item heap).map TieBreaker.eventId

variable {node : Id} {parents : List Id}

theorem releaseParents_ok {first last : Graph Id × List (TieBreaker Id Power)} (nodup : parents.Nodup)
    (folded : parents.foldlM (releaseParent keyFn node) first = .ok last) :
    (∀ other, last.1.lookup other = (first.1.lookup other).map
      (fun out => if other ∈ parents then out.erase node else out)) ∧
    (last.2.map TieBreaker.eventId).Perm (parents.filter (fun parent => (edgesOf first.1 parent).erase node = ∅) ++
        first.2.map TieBreaker.eventId) := by
  induction parents generalizing first with
  | nil =>
    cases folded
    refine ⟨?_, List.Perm.refl _⟩
    intro other
    cases last.1.lookup other <;> simp
  | cons parent parents ih =>
    obtain ⟨fresh, nodup⟩ := List.nodup_cons.mp nodup
    obtain ⟨middle, released, folded⟩ := Outcome.bind_eq_ok.mp folded
    obtain ⟨lookups, ids⟩ := ih nodup folded
    obtain ⟨out, held, released⟩ := Outcome.bind_eq_ok.mp released
    rw [Outcome.expect_eq_ok] at held
    have edges : edgesOf first.1 parent = out := by rw [edgesOf, held, Option.getD_some]
    have middleMap : middle.1 = first.1.insert parent (out.erase node) := by
      split at released
      · obtain ⟨item, _, made⟩ := Outcome.bind_eq_ok.mp released
        cases made
        rfl
      · cases released
        rfl
    have unchanged : parents.filter (fun parent => (edgesOf middle.1 parent).erase node = ∅) =
        parents.filter (fun parent => (edgesOf first.1 parent).erase node = ∅) := by
      refine List.filter_congr ?_
      intro other mem
      have ne : other ≠ parent := fun same => fresh (same ▸ mem)
      rw [middleMap, edgesOf_insert, if_neg ne]
    constructor
    · intro other
      rw [lookups, middleMap, HashMap.lookup_insert_eq]
      by_cases same : other = parent
      · subst same
        simp [held, fresh]
      · simp [same]
    · rw [unchanged] at ids
      split at released
      · rename_i empty
        obtain ⟨item, tied, made⟩ := Outcome.bind_eq_ok.mp released
        cases made
        have pushed := pushHeap_ids first.2 item
        rw [tieBreaker_eventId tied] at pushed
        rw [List.filter_cons_of_pos (by simpa [edges] using empty)]
        refine (ids.trans (pushed.append_left _)).trans ?_
        exact List.perm_middle
      · rename_i waits
        cases released
        rw [List.filter_cons_of_neg (by simpa [edges] using waits)]
        exact ids

theorem releaseParent_known {s : Graph Id × List (TieBreaker Id Power)} {parent : Id} {out : Finset Id}
    (held : s.1.lookup parent = some out) : releaseParent keyFn node s parent = if out.erase node = ∅ then
        tieBreaker keyFn parent >>= fun item =>
          .ok (s.1.insert parent (out.erase node), pushHeap s.2 item)
      else .ok (s.1.insert parent (out.erase node), s.2) := by
  unfold releaseParent
  rw [held]
  rfl

theorem releaseParent_comm (uniform : UniformFailure keyFn)
    (s : Graph Id × List (TieBreaker Id Power)) (left right : Id)
    (leftKnown : left ∈ s.1) (rightKnown : right ∈ s.1) :
    releaseParent keyFn node s left >>= (fun next => releaseParent keyFn node next right) =
      releaseParent keyFn node s right >>= (fun next => releaseParent keyFn node next left) := by
  by_cases same : left = right
  · rw [same]
  · obtain ⟨leftOut, leftHeld⟩ := Finmap.mem_iff.mp leftKnown
    obtain ⟨rightOut, rightHeld⟩ := Finmap.mem_iff.mp rightKnown
    have inserted : (s.1.insert left (leftOut.erase node)).insert right (rightOut.erase node) =
        (s.1.insert right (rightOut.erase node)).insert left (leftOut.erase node) :=
      Finmap.insert_insert_of_ne s.1 same
    have rightLater : ∀ heap : List (TieBreaker Id Power),
        releaseParent keyFn node (s.1.insert left (leftOut.erase node), heap) right = _ := fun heap =>
      releaseParent_known ((Finmap.lookup_insert_of_ne _ (Ne.symm same)).trans rightHeld)
    have leftLater : ∀ heap : List (TieBreaker Id Power),
        releaseParent keyFn node (s.1.insert right (rightOut.erase node), heap) left = _ := fun heap =>
      releaseParent_known ((Finmap.lookup_insert_of_ne _ same).trans leftHeld)
    rw [releaseParent_known leftHeld, releaseParent_known rightHeld]
    by_cases leftEmpty : leftOut.erase node = ∅ <;> by_cases rightEmpty : rightOut.erase node = ∅ <;>
      simp only [leftEmpty, rightEmpty, ↓reduceIte] at inserted rightLater leftLater ⊢ <;>
      simp only [bind_assoc, Outcome.ok_bind, rightLater, leftLater, inserted]
    -- Both nodes are released, so the two entries go on the heap in either order.
    rw [tieBreaker_bind_comm uniform left right]
    simp only [pushHeap_comm]

/-- The released nodes are those whose edges are all sorted, each of them once. -/
structure SortInv (graph : Graph Id) (state : SortState Id Power) : Prop where
  outdegree : ∀ node, state.outdegreeMap.lookup node =
    (graph.lookup node).map fun edges => edges \ state.sorted.toFinset
  nodup : (state.sorted ++ state.heap.map TieBreaker.eventId).Nodup
  released : ∀ node, node ∈ state.sorted ++ state.heap.map TieBreaker.eventId ↔
    node ∈ graph ∧ edgesOf graph node ⊆ state.sorted.toFinset

theorem zeroOutdegree_ids (made : zeroOutdegree schedule keyFn g = .ok heap) : (heap.map TieBreaker.eventId).Perm
      ((schedule.nodes.list g.keys).filter fun node => edgesOf g node = ∅) := by
  have folded : ∀ (nodes : List Id) (first last : List (TieBreaker Id Power)),
      nodes.foldlM (fun heap node => do return pushHeap heap (← tieBreaker keyFn node)) first =
        (.ok last : Outcome Error _) →
      (last.map TieBreaker.eventId).Perm (nodes ++ first.map TieBreaker.eventId) := by
    intro nodes
    induction nodes with
    | nil =>
      intro first last made
      cases made
      exact List.Perm.refl _
    | cons node nodes ih =>
      intro first last made
      obtain ⟨middle, pushed, made⟩ := Outcome.bind_eq_ok.mp made
      obtain ⟨item, tied, pushed⟩ := Outcome.bind_eq_ok.mp pushed
      cases pushed
      have ids := pushHeap_ids first item
      rw [tieBreaker_eventId tied] at ids
      exact ((ih _ _ made).trans (ids.append_left _)).trans List.perm_middle
  simpa using folded _ _ _ made

theorem sortInv_start (made : zeroOutdegree schedule keyFn g = .ok heap) :
    SortInv g { outdegreeMap := g, heap := heap, sorted := [] } := by
  have ids := zeroOutdegree_ids made
  refine ⟨?_, ?_, ?_⟩
  · intro node
    cases g.lookup node <;> simp
  · exact ids.nodup_iff.mpr ((schedule.nodes.nodup_list _).filter _)
  · intro node
    rw [List.nil_append, ids.mem_iff, List.mem_filter, HashOrder.mem_list, Finmap.mem_keys]
    simp

variable {next : SortState Id Power} {reverse : Graph Id}

theorem sortStep_popped (ran : sortStep schedule keyFn reverse s = .ok (.inl next)) :
    ∃ item heap parents, s.heap = item :: heap ∧ reverse.lookup item.eventId = some parents ∧
      ((schedule.parents item.eventId).list parents).foldlM (releaseParent keyFn item.eventId)
        (s.outdegreeMap, heap) = .ok (next.outdegreeMap, next.heap) ∧ next.sorted = s.sorted ++ [item.eventId] := by
  unfold sortStep at ran
  split at ran
  · cases ran
  · rename_i item heap shape
    obtain ⟨parents, looked, ran⟩ := Outcome.bind_eq_ok.mp ran
    obtain ⟨⟨outdegreeMap, left⟩, folded, made⟩ := Outcome.bind_eq_ok.mp ran
    cases made
    exact ⟨item, heap, parents, shape, Outcome.expect_eq_ok.mp looked, folded, rfl⟩

theorem sortInv_step (inv : SortInv g s)
    (ran : sortStep schedule keyFn (reverseGraph schedule g) s = .ok (.inl next)) :
    SortInv g next ∧ next.sorted.length = s.sorted.length + 1 := by
  obtain ⟨item, heap, parents, shape, looked, folded, grown⟩ := sortStep_popped ran
  obtain ⟨outdegreeMap, _, sorted⟩ := s
  obtain ⟨outdegreeMap', heap', _⟩ := next
  subst shape grown
  have listed : ∀ parent, parent ∈ (schedule.parents item.eventId).list parents ↔
      item.eventId ∈ edgesOf g parent := by
    intro parent
    rw [HashOrder.mem_list, ← edgesOf_reverseGraph schedule, edgesOf, looked, Option.getD_some]
  obtain ⟨lookups, ids⟩ := releaseParents_ok ((schedule.parents item.eventId).nodup_list parents) folded
  have order : ((sorted ++ [item.eventId]) ++ heap'.map TieBreaker.eventId).Perm
      (((schedule.parents item.eventId).list parents).filter
        (fun parent => (edgesOf outdegreeMap parent).erase item.eventId = ∅) ++
          (sorted ++ item.eventId :: heap.map TieBreaker.eventId)) := by
    refine (ids.append_left _).trans ((List.perm_append_comm_assoc _ _ _).trans ?_)
    rw [List.append_assoc, List.singleton_append]
  have nodup : (sorted ++ item.eventId :: heap.map TieBreaker.eventId).Nodup := inv.nodup
  have unsorted : item.eventId ∉ sorted := by
    intro mem
    exact (List.nodup_append.mp nodup).2.2 _ mem _ (List.mem_cons_self ..) rfl
  have edges : ∀ parent, edgesOf outdegreeMap parent = edgesOf g parent \ sorted.toFinset := by
    intro parent
    unfold edgesOf
    rw [inv.outdegree]
    cases g.lookup parent <;> simp
  have covered : ∀ parent, (edgesOf outdegreeMap parent).erase item.eventId = ∅ ↔
      edgesOf g parent ⊆ (sorted ++ [item.eventId]).toFinset := by
    intro parent
    rw [edges, Finset.eq_empty_iff_forall_notMem, Finset.subset_iff]
    simp only [Finset.mem_erase, Finset.mem_sdiff, List.mem_toFinset, List.mem_append, List.mem_singleton]
    exact forall_congr' fun edge => by tauto
  refine ⟨⟨?_, ?_, ?_⟩, by simp⟩
  · intro node
    rw [lookups, inv.outdegree]
    cases held : g.lookup node with
    | none => rfl
    | some out =>
      have own : edgesOf g node = out := by rw [edgesOf, held, Option.getD_some]
      simp only [Option.map_some, listed, own, Option.some.injEq]
      ext edge
      split
      · simp only [Finset.mem_erase, Finset.mem_sdiff, List.mem_toFinset, List.mem_append, List.mem_singleton]
        tauto
      · rename_i other
        simp only [Finset.mem_sdiff, List.mem_toFinset, List.mem_append, List.mem_singleton]
        constructor
        · rintro ⟨mem, fresh⟩
          exact ⟨mem, fun either => either.elim fresh fun same => other (same ▸ mem)⟩
        · rintro ⟨mem, fresh⟩
          exact ⟨mem, fun earlier => fresh (Or.inl earlier)⟩
  · rw [order.nodup_iff, List.nodup_append]
    refine ⟨((schedule.parents item.eventId).nodup_list parents).filter _, nodup, ?_⟩
    intro parent waiting other released same
    subst same
    have edge := (listed parent).mp (List.mem_filter.mp waiting).1
    have sub := ((inv.released parent).mp released).2
    exact unsorted (List.mem_toFinset.mp (sub edge))
  · intro node
    rw [order.mem_iff, List.mem_append, List.mem_filter, listed]
    constructor
    · rintro (⟨edge, empty⟩ | released)
      · exact ⟨mem_of_edge edge, (covered node).mp (of_decide_eq_true empty)⟩
      · obtain ⟨known, sub⟩ := (inv.released node).mp released
        exact ⟨known, sub.trans (by simp)⟩
    · rintro ⟨known, sub⟩
      by_cases edge : item.eventId ∈ edgesOf g node
      · exact Or.inl ⟨edge, decide_eq_true ((covered node).mpr sub)⟩
      · refine Or.inr ((inv.released node).mpr ⟨known, ?_⟩)
        intro other mem
        have later := List.mem_toFinset.mp (sub mem)
        rcases List.mem_append.mp later with earlier | last
        · exact List.mem_toFinset.mpr earlier
        · rw [List.mem_singleton] at last
          exact absurd (last ▸ mem) edge

omit [LinearOrder Power] in
theorem SortInv.sorted_mem (inv : SortInv g s) {node : Id} (mem : node ∈ s.sorted) : node ∈ g :=
  ((inv.released node).mp (List.mem_append_left _ mem)).1

omit [LinearOrder Power] in
theorem SortInv.length_le (inv : SortInv g s) : s.sorted.length ≤ g.keys.card := by
  have nodup := (List.nodup_append.mp inv.nodup).1
  rw [← List.toFinset_card_of_nodup nodup]
  refine Finset.card_le_card ?_
  intro node mem
  exact Finmap.mem_keys.mpr (inv.sorted_mem (List.mem_toFinset.mp mem))

variable {sorted : List Id}

theorem sortStep_result (left : sortStep schedule keyFn reverse s = .ok (.inr sorted)) :
    s.heap = [] ∧ sorted = s.sorted := by
  unfold sortStep at left
  split at left
  · rename_i empty
    cases left
    exact ⟨empty, rfl⟩
  · obtain ⟨_, _, left⟩ := Outcome.bind_eq_ok.mp left
    obtain ⟨_, _, left⟩ := Outcome.bind_eq_ok.mp left
    cases left

theorem mem_of_lexicographicalTopologicalSort {fuel : Nat} {node : Id}
    (returned : lexicographicalTopologicalSort schedule keyFn g fuel = .ok sorted) (mem : node ∈ sorted) :
    node ∈ g := by
  obtain ⟨heap, started, looped⟩ := Outcome.bind_eq_ok.mp returned
  refine loop_invariant (SortInv g) (fun sorted => ∀ node ∈ sorted, node ∈ g)
    (fun _ _ inv ran => (sortInv_step inv ran).1) ?_ looped (sortInv_start started) node mem
  intro s result inv left other listed
  rw [(sortStep_result left).2] at listed
  exact inv.sorted_mem listed

end Lexicographical

end Phantom.StateRes
