import Phantom.StateRes.SortInvariant

namespace Phantom.StateRes

open Phantom.Lib Phantom.Matrix

section Lexicographical

variable {Id Power : Type} [LinearOrder Id] [LinearOrder Power] {schedule : SortSchedule Id}
  {keyFn : Id → Outcome Error (Power × Nat)} {g : Graph Id}
variable {s : SortState Id Power} {failure : Failure Error}

theorem zeroOutdegree_schedule (uniform : UniformFailure keyFn) (schedule other : SortSchedule Id) (g : Graph Id) :
    zeroOutdegree schedule keyFn g = zeroOutdegree other keyFn g := by
  refine foldlM_perm (fun _ => True) (fun _ _ _ _ _ _ => trivial) ?_
    ((schedule.nodes.list_perm other.nodes g.keys).filter _) trivial
  intro heap left right _ _ _
  have order := tieBreaker_bind_comm uniform left right (fun leftItem rightItem =>
    (.ok (pushHeap (pushHeap heap leftItem) rightItem) : Outcome Error (List (TieBreaker Id Power))))
  simp only [bind_assoc, pure_bind]
  simp only [Outcome.pure_eq_ok]
  rw [order]
  simp only [pushHeap_comm]

variable {node : Id}

omit [LinearOrder Power] in
theorem parents_known (inv : SortInv g s) {parents : Finset Id}
    (looked : (reverseGraph schedule g).lookup node = some parents) :
    ∀ parent ∈ parents, parent ∈ g ∧ parent ∈ s.outdegreeMap := by
  intro parent mem
  have edge : node ∈ edgesOf g parent := by
    rw [← edgesOf_reverseGraph schedule, edgesOf, looked, Option.getD_some]
    exact mem
  refine ⟨mem_of_edge edge, Finmap.mem_iff.mpr ?_⟩
  rw [inv.outdegree, lookup_of_mem (mem_of_edge edge)]
  exact ⟨_, rfl⟩

theorem releaseParent_mem {parent other : Id} {s next : Graph Id × List (TieBreaker Id Power)}
    (released : releaseParent keyFn node s parent = .ok next) (known : other ∈ s.1) : other ∈ next.1 := by
  obtain ⟨out, _, rest⟩ := Outcome.bind_eq_ok.mp released
  split at rest
  · obtain ⟨_, _, made⟩ := Outcome.bind_eq_ok.mp rest
    cases made
    exact Finmap.mem_insert.mpr (Or.inr known)
  · cases rest
    exact Finmap.mem_insert.mpr (Or.inr known)

theorem sortStep_schedule (uniform : UniformFailure keyFn) (other : SortSchedule Id) (inv : SortInv g s) :
    sortStep schedule keyFn (reverseGraph schedule g) s = sortStep other keyFn (reverseGraph schedule g) s := by
  unfold sortStep
  split
  · rfl
  · rename_i item heap shape
    refine bind_congr_ok ?_
    intro parents looked
    have known : ∀ parent ∈ (schedule.parents item.eventId).list parents, parent ∈ s.outdegreeMap := by
      intro parent mem
      exact (parents_known inv (Outcome.expect_eq_ok.mp looked) parent ((HashOrder.mem_list _).mp mem)).2
    rw [foldlM_perm (fun s => ∀ parent ∈ (schedule.parents item.eventId).list parents, parent ∈ s.1)
      ?_ ?_ ((schedule.parents item.eventId).list_perm (other.parents item.eventId) parents) known]
    · intro current parent next _ kept released waiting listed
      exact releaseParent_mem released (kept waiting listed)
    · intro current left right leftMember rightMember kept
      exact releaseParent_comm uniform current left right (kept left leftMember) (kept right rightMember)

theorem lexicographicalTopologicalSort_schedule (uniform : UniformFailure keyFn)
    (schedule other : SortSchedule Id) (g : Graph Id) (fuel : Nat) :
    lexicographicalTopologicalSort schedule keyFn g fuel = lexicographicalTopologicalSort other keyFn g fuel := by
  unfold lexicographicalTopologicalSort
  rw [← zeroOutdegree_schedule uniform schedule other, ← reverseGraph_schedule schedule other]
  refine bind_congr_ok ?_
  intro heap started
  exact loop_congr (SortInv g) (fun _ _ inv ran => (sortInv_step inv ran).1)
    (fun _ inv => sortStep_schedule uniform other inv) (sortInv_start started) fuel

omit [LinearOrder Id] [LinearOrder Power] in
theorem tieBreaker_failure (failed : tieBreaker keyFn node = .error failure) : keyFn node = .error failure := by
  rcases Outcome.bind_eq_error.mp failed with failed | ⟨_, _, failed⟩
  · exact failed
  · cases failed

theorem sortStep_failure (inv : SortInv g s)
    (failed : sortStep schedule keyFn (reverseGraph schedule g) s = .error failure) :
    ∃ node ∈ g, keyFn node = .error failure := by
  unfold sortStep at failed
  split at failed
  · cases failed
  · rename_i item heap shape
    rcases Outcome.bind_eq_error.mp failed with failed | ⟨parents, looked, failed⟩
    · have released := (inv.released item.eventId).mp (by simp [shape])
      obtain ⟨parents, held⟩ := Finmap.mem_iff.mp ((mem_reverseGraph item.eventId).mpr (Or.inl released.1))
      rw [held] at failed
      cases failed
    · have known := parents_known inv (Outcome.expect_eq_ok.mp looked)
      rcases Outcome.bind_eq_error.mp failed with failed | ⟨_, _, failed⟩
      · obtain ⟨current, kept, parent, mem, failed⟩ := foldlM_failure_of
          (fun current => ∀ parent ∈ parents, parent ∈ current.1)
          (fun _ _ _ _ kept released waiting listed => releaseParent_mem released (kept waiting listed))
          failed (fun parent mem => (known parent mem).2)
        rw [HashOrder.mem_list] at mem
        obtain ⟨out, held⟩ := Finmap.mem_iff.mp (kept parent mem)
        rw [releaseParent_known held] at failed
        split at failed
        · rcases Outcome.bind_eq_error.mp failed with failed | ⟨_, _, failed⟩
          · exact ⟨parent, (known parent mem).1, tieBreaker_failure failed⟩
          · cases failed
        · cases failed
      · cases failed

theorem zeroOutdegree_failure (failed : zeroOutdegree schedule keyFn g = .error failure) :
    ∃ node ∈ g, keyFn node = .error failure := by
  obtain ⟨_, node, mem, failed⟩ := foldlM_failure failed
  rcases Outcome.bind_eq_error.mp failed with failed | ⟨_, _, failed⟩
  · have listed := (HashOrder.mem_list _).mp (List.mem_filter.mp mem).1
    exact ⟨node, Finmap.mem_keys.mp listed, tieBreaker_failure failed⟩
  · cases failed

variable {fuel : Nat}

theorem lexicographicalTopologicalSort_failure
    (failed : lexicographicalTopologicalSort schedule keyFn g fuel = .error failure) :
    failure = .unfinished ∨ ∃ node ∈ g, keyFn node = .error failure := by
  rcases Outcome.bind_eq_error.mp failed with failed | ⟨heap, started, failed⟩
  · exact Or.inr (zeroOutdegree_failure failed)
  · exact loop_failure (SortInv g) (fun failure => ∃ node ∈ g, keyFn node = .error failure)
      (fun _ _ inv ran => (sortInv_step inv ran).1) (fun _ _ inv failed => sortStep_failure inv failed)
      failed (sortInv_start started)

theorem sortLoop_finishes (finishes : ∀ node ∈ g, (keyFn node).Finishes) {heap : List (TieBreaker Id Power)}
    (started : zeroOutdegree schedule keyFn g = .ok heap) (enough : g.keys.card < fuel) :
    (loop (sortStep schedule keyFn (reverseGraph schedule g)) fuel
      { outdegreeMap := g, heap := heap, sorted := [] }).Finishes := by
  refine loop_finishes (SortInv g) (fun s => g.keys.card - s.sorted.length) ?_ ?_
    (sortInv_start started) (by simpa using enough)
  · intro s inv failed
    obtain ⟨node, mem, failed⟩ := sortStep_failure inv failed
    exact finishes node mem failed
  · intro s next inv ran
    obtain ⟨kept, longer⟩ := sortInv_step inv ran
    have bounded := kept.length_le
    exact ⟨kept, by omega⟩

theorem lexicographicalTopologicalSort_finishes (finishes : ∀ node ∈ g, (keyFn node).Finishes)
    (schedule : SortSchedule Id) (enough : g.keys.card < fuel) :
    (lexicographicalTopologicalSort schedule keyFn g fuel).Finishes := by
  refine Outcome.Finishes.bind_of_ok ?_ (fun heap started => sortLoop_finishes finishes started enough)
  intro failed
  obtain ⟨node, mem, failed⟩ := zeroOutdegree_failure failed
  exact finishes node mem failed

theorem lexicographicalTopologicalSort_settles (uniform : UniformFailure keyFn)
    (finishes : ∀ node ∈ g, (keyFn node).Finishes) (schedule other : SortSchedule Id) (fuel : Nat) :
    lexicographicalTopologicalSort schedule keyFn g fuel =
      lexicographicalTopologicalSort other keyFn g (g.keys.card + 1) ∨
    (lexicographicalTopologicalSort schedule keyFn g fuel = .error .unfinished ∧ fuel < g.keys.card + 1) := by
  rw [lexicographicalTopologicalSort_schedule uniform schedule other]
  unfold lexicographicalTopologicalSort
  cases started : zeroOutdegree other keyFn g with
  | error failure => exact Or.inl rfl
  | ok heap => exact loop_settles (sortLoop_finishes finishes started (Nat.lt_succ_self _)) fuel

end Lexicographical

end Phantom.StateRes
