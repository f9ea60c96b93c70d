import Phantom.StateRes.SortGreedy

namespace Phantom.Transaction

open Phantom.Lib Phantom.Matrix Phantom.StateRes Relation

/-- A PDU of a transaction with its place there, its room and its ID. -/
structure IndexedPdu where
  index : Nat
  roomId : RoomId
  eventId : EventId
  value : BTreeMap String Json

def asStr : Json → Option String
  | .string text => some text
  | _ => none

def prevEventIds (value : BTreeMap String Json) : List String :=
  match value.get "prev_events" with
  | some (.array items) => items.filterMap asStr
  | _ => []

def isSorted (pdus : List IndexedPdu) : Bool :=
  let position := HashMap.positions (pdus.map fun pdu => pdu.eventId.asStr)
  (pdus.mapIdx fun index pdu => (index, pdu)).all fun entry =>
    (prevEventIds entry.2.value).all fun prev => (position.lookup prev).all fun place => place < entry.1

section Sorting

variable (schedule : SortSchedule EventId)

def prevEventsGraph (pdus : List IndexedPdu) : Graph EventId :=
  let batch : HashMap String EventId := HashMap.collect (pdus.map fun pdu => (pdu.eventId.asStr, pdu.eventId))
  HashMap.collect (pdus.map fun pdu => (pdu.eventId, ((prevEventIds pdu.value).filterMap batch.lookup).toFinset))

def sameTieBreaker (_ : EventId) : Outcome Error (Int × Nat) := .ok (0, 0)

/-- `None`, the place of an event that the order leaves out, is below every other. -/
def placeIn (order : List EventId) (pdu : IndexedPdu) : WithBot Nat :=
  (HashMap.positions (order.map EventId.asStr)).lookup pdu.eventId.asStr

def sortPdus (fuel : Nat) (pdus : List IndexedPdu) : Outcome Error (List IndexedPdu) :=
  if isSorted pdus then .ok pdus
  else match lexicographicalTopologicalSort schedule sameTieBreaker (prevEventsGraph pdus) fuel with
    | .ok order => .ok (pdus.insertionSort fun left right => placeIn order left ≤ placeIn order right)
    | .error (.err _) => .ok pdus
    | .error failure => .error failure

end Sorting

/-- No PDU of the list refers to one that comes after it. -/
def DependencyOrder (pdus : List IndexedPdu) : Prop :=
  pdus.Pairwise fun earlier later => later.eventId.asStr ∉ prevEventIds earlier.value

variable {pdus : List IndexedPdu}

theorem dependencyOrder_of_isSorted (sorted : isSorted pdus = true) : DependencyOrder pdus := by
  refine List.pairwise_iff_getElem.mpr ?_
  intro first second firstBound secondBound before refers
  have place : (pdus.map fun pdu => pdu.eventId.asStr)[second]? = some pdus[second].eventId.asStr := by
    simp [secondBound]
  obtain ⟨last, held, later, _⟩ := HashMap.positions_last place
  have listed : (first, pdus[first]) ∈ pdus.mapIdx (fun index pdu => (index, pdu)) :=
    List.mem_mapIdx.mpr ⟨first, firstBound, rfl⟩
  have below := List.all_eq_true.mp (List.all_eq_true.mp sorted _ listed) _ refers
  rw [held] at below
  simp only [Option.all_some, decide_eq_true_eq] at below
  omega

theorem mem_prevEventsGraph {id : EventId} : id ∈ prevEventsGraph pdus ↔ ∃ pdu ∈ pdus, pdu.eventId = id := by
  simp [prevEventsGraph, HashMap.mem_collect]

/-- The references within the list: the newer event names the older one, and both are in it. -/
def References (pdus : List IndexedPdu) (older newer : EventId) : Prop :=
  (∃ pdu ∈ pdus, pdu.eventId = newer ∧ older.asStr ∈ prevEventIds pdu.value) ∧ ∃ pdu ∈ pdus, pdu.eventId = older

theorem asStr_injective : Function.Injective EventId.asStr := by
  rintro ⟨left⟩ ⟨right⟩ rfl
  rfl

theorem mem_edgesOf_prevEventsGraph {id prev : EventId}
    (same : ∀ left ∈ pdus, ∀ right ∈ pdus, left.eventId = right.eventId →
    left.value = right.value) : prev ∈ edgesOf (prevEventsGraph pdus) id ↔ References pdus prev id := by
  have batch : ∀ text, (HashMap.collect (pdus.map fun pdu => (pdu.eventId.asStr, pdu.eventId))).lookup text =
      some prev ↔ text = prev.asStr ∧ ∃ pdu ∈ pdus, pdu.eventId = prev := by
    intro text
    rw [HashMap.lookup_collect (by grind [asStr_injective.eq_iff])]
    grind
  have edges : ∀ edges, (prevEventsGraph pdus).lookup id = some edges ↔ ∃ pdu ∈ pdus, pdu.eventId = id ∧
      edges = ((prevEventIds pdu.value).filterMap (HashMap.collect
        (pdus.map fun pdu => (pdu.eventId.asStr, pdu.eventId))).lookup).toFinset := by
    intro edges
    rw [prevEventsGraph, HashMap.lookup_collect (by grind)]
    grind
  unfold References edgesOf
  cases held : (prevEventsGraph pdus).lookup id with
  | none =>
    have absent := mt mem_prevEventsGraph.mpr (Finmap.lookup_eq_none.mp held)
    grind
  | some found =>
    obtain ⟨pdu, mem, rfl, rfl⟩ := (edges found).mp held
    simp only [Option.getD_some, List.mem_toFinset, List.mem_filterMap, batch]
    grind

theorem placeIn_lt {key : EventId → Int × Nat} {order : List EventId}
    (canonical : Canonical (prevEventsGraph pdus) key order) {older newer : IndexedPdu} (listed : newer ∈ pdus)
    (edge : older.eventId ∈ edgesOf (prevEventsGraph pdus) newer.eventId) :
    placeIn order older < placeIn order newer := by
  have known := (canonical.complete newer.eventId).mpr (mem_prevEventsGraph.mpr ⟨newer, listed, rfl⟩)
  obtain ⟨index, found⟩ := List.mem_iff_getElem?.mp known
  obtain ⟨earlier, before⟩ := List.mem_iff_getElem?.mp ((canonical.next index _ found).1 _ edge)
  have nodup : (order.map EventId.asStr).Nodup := canonical.nodup.map asStr_injective
  rw [List.getElem?_take] at before
  split at before
  · rename_i smaller
    have olderPlace : (HashMap.positions (order.map EventId.asStr)).lookup older.eventId.asStr = some earlier :=
      HashMap.positions_of_nodup nodup (by simp [before])
    have newerPlace : (HashMap.positions (order.map EventId.asStr)).lookup newer.eventId.asStr = some index :=
      HashMap.positions_of_nodup nodup (by simp [found])
    rw [placeIn, placeIn, olderPlace, newerPlace]
    exact WithBot.coe_lt_coe.mpr smaller
  · cases before

theorem sortPdus_dependency_order (schedule : SortSchedule EventId) (pdus : List IndexedPdu) {fuel : Nat}
    (enough : pdus.length < fuel) : ∃ sorted, sortPdus schedule fuel pdus = .ok sorted ∧ sorted.Perm pdus ∧
      ((∀ left ∈ pdus, ∀ right ∈ pdus, left.eventId = right.eventId → left.value = right.value) →
        (∀ id, ¬ TransGen (References pdus) id id) → DependencyOrder sorted) := by
  unfold sortPdus
  split
  · rename_i sorted
    exact ⟨pdus, rfl, .refl _, fun _ _ => dependencyOrder_of_isSorted sorted⟩
  · have few : (prevEventsGraph pdus).keys.card ≤ pdus.length := by
      refine (Finset.card_le_card ?_).trans ((pdus.map IndexedPdu.eventId).toFinset_card_le.trans (by simp))
      intro id member
      simpa using mem_prevEventsGraph.mp (Finmap.mem_keys.mp member)
    have keyed : ∀ node ∈ prevEventsGraph pdus, sameTieBreaker node = .ok (0, 0) := fun _ _ => rfl
    obtain ⟨order, returned⟩ := lexicographicalTopologicalSort_returns schedule keyed (few.trans_lt enough)
    rw [returned]
    refine ⟨_, rfl, List.perm_insertionSort _ _, ?_⟩
    intro same acyclic
    have canonical : Canonical (prevEventsGraph pdus) (fun _ => ((0 : Int), 0)) order := by
      refine canonical_of_sorted keyed ?_ ?_ returned
      · intro node edge member
        exact mem_prevEventsGraph.mpr ((mem_edgesOf_prevEventsGraph same).mp member).2
      · simpa only [mem_edgesOf_prevEventsGraph same] using acyclic
    have sorted := List.pairwise_insertionSort (fun left right => placeIn order left ≤ placeIn order right) pdus
    refine sorted.imp_of_mem ?_
    intro earlier later first second below refers
    rw [(List.perm_insertionSort _ _).mem_iff] at first second
    have edge := (mem_edgesOf_prevEventsGraph same).mpr ⟨⟨earlier, first, rfl, refers⟩, later, second, rfl⟩
    exact absurd below (not_le.mpr (placeIn_lt canonical first edge))

namespace Sample

def reply (eventId : String) (prevEvents : List String) : IndexedPdu where
  index := 0
  roomId := ⟨"!c"⟩
  eventId := ⟨eventId⟩
  value := BTreeMap.empty.insert "prev_events" (.array (prevEvents.map .string))

def idOrder : HashOrder EventId := .ascending id Function.injective_id

def two : List IndexedPdu := [reply "$b" ["$a"], reply "$a" []]

theorem two_acyclic (id : EventId) : ¬ TransGen (References two) id id := by
  have older : ∀ older newer, References two older newer → older.asStr < newer.asStr := by
    intro older newer refers
    obtain ⟨⟨pdu, mem, rfl, named⟩, _⟩ := refers
    rcases List.mem_pair.mp mem with rfl | rfl
    · rw [List.mem_singleton.mp (show older.asStr ∈ ["$a"] from named)]
      decide
    · cases named
  intro cycle
  have rising := TransGen.lift EventId.asStr older id id cycle
  rw [transGen_eq_self] at rising
  exact lt_irrefl _ rising

theorem sortPdus_dependency_order_of_two : ∃ sorted, sortPdus ⟨idOrder, fun _ => idOrder, fun _ => idOrder⟩ 3 two =
    .ok sorted ∧ sorted.Perm two ∧ DependencyOrder sorted := by
  obtain ⟨sorted, returned, perm, ordered⟩ := sortPdus_dependency_order ⟨idOrder, fun _ => idOrder, fun _ => idOrder⟩ two
    (show 2 < 3 by decide)
  refine ⟨sorted, returned, perm, ordered ?_ two_acyclic⟩
  intro left first right second same
  simp only [two, List.mem_pair] at first second
  rcases first with rfl | rfl <;> rcases second with rfl | rfl
  · rfl
  · exact absurd same (by decide)
  · exact absurd same (by decide)
  · rfl

end Sample

end Phantom.Transaction
