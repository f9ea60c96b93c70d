import Phantom.EventHandler.FailedUpgrade

namespace Phantom.EventHandler

open Phantom.Lib Phantom.Matrix Phantom.Timeline

/-- The call of `fill_gap` with what it meets on the way: the tombstones, the JSON of the outliers, the
    answer to its request for missing events, and whether the budget is spent at each turn. -/
structure GapCall where
  handler : Handler
  origin : ServerName
  roomId : RoomId
  incomingPdu : Event
  firstTsInRoom : Nat
  isPurged : EventId → Bool
  outlierJson : EventId → CanonicalJsonObject
  fetchMissingEvents : List EventId → Tables → HashMap EventId Event × Tables
  eventOrder : HashOrder EventId
  budgetSpent : Nat → Bool

/-- An event of the gap when its turn comes, and whether it was attempted or passed over. -/
structure Turn where
  eventId : EventId
  pdu : Event
  attempted : Bool

abbrev Turn.entry (turn : Turn) : EventId × Event := (turn.eventId, turn.pdu)

def age (entry : EventId × Event) : Nat ×ₗ EventId := toLex (entry.2.originServerTs, entry.1)

section FillGap

variable (call : GapCall) (tables : Tables)

def isPlaced (id : EventId) : Bool := (tables.timeline id).isSome || call.isPurged id

def heldAndMissing : HashMap EventId Event × List EventId :=
  call.incomingPdu.prevEvents.foldl (fun (held, missing) prevEventId =>
    if isPlaced call tables prevEventId then (held, missing)
    else match tables.outliers prevEventId with
      | some row => (held.insert prevEventId row.pdu, missing)
      | none => (held, missing ++ [prevEventId])) (∅, [])

def gapEvents : HashMap EventId Event × Tables :=
  let (held, missing) := heldAndMissing call tables
  let (events, tables) := if missing = [] then (∅, tables) else call.fetchMissingEvents missing tables
  -- `entry(event_id).or_insert(pdu)`: an event that was fetched stays as it is.
  (events ∪ held, tables)

def sortedOldestFirst (events : HashMap EventId Event) : List (EventId × Event) :=
  (call.eventOrder.iterate events).insertionSort fun left right => age left ≤ age right

/-- The row that the upgrade of an event starts from, unless the event is passed over. -/
def attemptable (eventId : EventId) (pdu : Event) : Bool :=
  decide (call.firstTsInRoom ≤ pdu.originServerTs) && !isPlaced call tables eventId
    && (tables.outliers eventId).isSome

def placeEvents : Nat → List (EventId × Event) → Tables → List Turn × Tables
  | _, [], tables => ([], tables)
  | turn, (eventId, pdu) :: events, tables =>
    if call.budgetSpent turn then ([], tables)
    else if attemptable call tables eventId pdu then
      match (upgradeOutlierToTimelinePdu call.handler
          ⟨pdu, call.outlierJson eventId, call.origin, call.roomId⟩).attempt tables with
      | (.error _, tables) => ([⟨eventId, pdu, true⟩], tables)
      | (.ok _, tables) =>
        let (turns, tables) := placeEvents (turn + 1) events tables
        (⟨eventId, pdu, true⟩ :: turns, tables)
    else
      let (turns, tables) := placeEvents (turn + 1) events tables
      (⟨eventId, pdu, false⟩ :: turns, tables)

def fillGap : List Turn × Tables :=
  let (events, tables) := gapEvents call tables
  placeEvents call 0 (sortedOldestFirst call events) tables

end FillGap

section Order

variable {call : GapCall} {events : HashMap EventId Event} {tables : Tables}

theorem mem_sortedOldestFirst {entry : EventId × Event} :
    entry ∈ sortedOldestFirst call events ↔ events.lookup entry.1 = some entry.2 := by
  rw [sortedOldestFirst, List.mem_insertionSort, HashOrder.mem_iterate]

variable (call events) in
theorem pairwise_sortedOldestFirst : (sortedOldestFirst call events).Pairwise
    (fun left right => age left < age right) := by
  have sorted := List.pairwise_insertionSort (fun left right => age left ≤ age right) (call.eventOrder.iterate events)
  have nodup := (List.perm_insertionSort (fun left right => age left ≤ age right)
    (call.eventOrder.iterate events)).nodup_iff.mpr (call.eventOrder.nodup_iterate events)
  refine (sorted.and nodup).imp_of_mem fun {left right} leftMem rightMem ordered => ?_
  refine lt_of_le_of_ne ordered.1 fun same => ordered.2 ?_
  have ids : left.1 = right.1 := congrArg (fun pair => (ofLex pair).2) same
  have found := mem_sortedOldestFirst.mp leftMem
  rw [ids, mem_sortedOldestFirst.mp rightMem] at found
  exact Prod.ext ids (Option.some.inj found).symm

variable (call) in
theorem placeEvents_isPrefix (turn : Nat) (entries : List (EventId × Event)) (t : Tables) :
    (placeEvents call turn entries t).1.map Turn.entry <+: entries := by
  fun_induction placeEvents call turn entries t <;> simp_all [Turn.entry]

/-- The turns before one are of the older events of the gap. -/
theorem mem_before_iff {before after : List Turn} {turn : Turn}
    (turns : (fillGap call tables).1 = before ++ turn :: after)
    {prev : EventId} {pdu : Event} (found : (gapEvents call tables).1.lookup prev = some pdu) :
    prev ∈ before.map Turn.eventId ↔ age (prev, pdu) < age turn.entry := by
  have sorted := pairwise_sortedOldestFirst call (gapEvents call tables).1
  have entries : ∀ {entry}, entry ∈ sortedOldestFirst call (gapEvents call tables).1 ↔ _ := mem_sortedOldestFirst
  obtain ⟨rest, whole⟩ := placeEvents_isPrefix call 0
    (sortedOldestFirst call (gapEvents call tables).1) (gapEvents call tables).2
  change (fillGap call tables).1.map Turn.entry ++ rest = _ at whole
  rw [← whole, turns] at sorted entries
  simp only [List.map_append, List.map_cons, List.append_assoc, List.cons_append] at sorted entries
  obtain ⟨_, later, ordered⟩ := List.pairwise_append.mp sorted
  constructor
  · intro mem
    obtain ⟨earlier, earlierMem, rfl⟩ := List.mem_map.mp mem
    have listed : earlier.entry ∈ before.map Turn.entry := List.mem_map_of_mem earlierMem
    have same : earlier.pdu = pdu :=
      Option.some.inj ((entries.mp (List.mem_append_left _ listed)).symm.trans found)
    exact same ▸ ordered earlier.entry listed _ List.mem_cons_self
  · intro older
    rcases List.mem_append.mp ((@entries (prev, pdu)).mpr found) with early | late
    · obtain ⟨earlier, earlierMem, same⟩ := List.mem_map.mp early
      exact List.mem_map.mpr ⟨earlier, earlierMem, congrArg Prod.fst same⟩
    · rcases List.mem_cons.mp late with same | younger
      · exact absurd (same ▸ older) (lt_irrefl _)
      · exact absurd older ((List.rel_of_pairwise_cons later younger).not_gt)

/-- An event comes after its prev events of the gap if and only if it is younger than they are, by the timestamp and then
    the ID. -/
theorem gap_in_dependency_order_iff {before after : List Turn} {turn : Turn}
    (turns : (fillGap call tables).1 = before ++ turn :: after) :
    (∀ prev ∈ turn.pdu.prevEvents, prev ∈ (gapEvents call tables).1 → prev ∈ before.map Turn.eventId) ↔
      ∀ prev ∈ turn.pdu.prevEvents, ∀ pdu, (gapEvents call tables).1.lookup prev = some pdu →
        age (prev, pdu) < age turn.entry := by
  refine forall₂_congr fun prev _ => ?_
  rw [Finmap.mem_iff]
  constructor
  · exact fun placed pdu found => (mem_before_iff turns found).mp (placed ⟨pdu, found⟩)
  · rintro younger ⟨pdu, found⟩
    exact (mem_before_iff turns found).mpr (younger pdu found)

end Order

namespace Sample

open Phantom.Timeline.Sample (room tables)

def said (eventId prev : String) (originServerTs : Nat) : Event where
  eventId := ⟨eventId⟩
  roomId := room
  sender := bob
  originServerTs := originServerTs
  eventType := .ofString "m.room.message"
  content := .object []
  stateKey := none
  prevEvents := [⟨prev⟩]
  authEvents := [⟨"$m.room.create"⟩]
  redacts := none

def question : Event := said "$question" "$m.room.join_rules" 2

/-- The answer, from a server whose clock is behind. -/
def answer : Event := said "$answer" "$question" 1

def gapCall : GapCall where
  handler := handler
  origin := ⟨"there"⟩
  roomId := room
  incomingPdu := { said "$thanks" "$answer" 3 with prevEvents := [⟨"$question"⟩, ⟨"$answer"⟩] }
  firstTsInRoom := 0
  isPurged _ := false
  outlierJson _ := .empty
  fetchMissingEvents _ tables := (∅, tables)
  eventOrder := .ascending id Function.injective_id
  budgetSpent _ := false

def gapTables : Tables := (tables.addPduOutlier question).addPduOutlier answer

def laterTables : Tables := (tables.addPduOutlier (said "$question" "$m.room.join_rules" 0)).addPduOutlier answer

/-- With the clocks in step the answer has its turn after the question. -/
theorem gap_in_dependency_order_later : ∃ before turn, (fillGap gapCall laterTables).1 = before ++ [turn] ∧
    turn.eventId = answer.eventId ∧ turn.attempted ∧
    ∀ prev ∈ turn.pdu.prevEvents, prev ∈ (gapEvents gapCall laterTables).1 → prev ∈ before.map Turn.eventId := by
  have listed : (fillGap gapCall laterTables).1.map (fun turn => (turn.pdu.prevEvents, age turn.entry, turn.attempted)) =
      [([⟨"$m.room.join_rules"⟩], toLex (0, question.eventId), true),
        ([question.eventId], toLex (1, answer.eventId), true)] := by decide +kernel
  have oldest : ((gapEvents gapCall laterTables).1.lookup question.eventId).map Event.originServerTs = some 0 := by
    decide +kernel
  obtain ⟨first, rest, turns, _, listed⟩ := List.map_eq_cons_iff.mp listed
  obtain ⟨turn, rest, rfl, same, listed⟩ := List.map_eq_cons_iff.mp listed
  obtain rfl := List.map_eq_nil_iff.mp listed
  obtain ⟨prevEvents, aged, attempted⟩ : _ ∧ _ ∧ _ := by simpa only [Prod.mk.injEq] using same
  refine ⟨[first], turn, turns, congrArg (fun pair => (ofLex pair).2) aged, attempted, ?_⟩
  refine (gap_in_dependency_order_iff turns).mpr fun prev named pdu found => ?_
  rw [prevEvents, List.mem_singleton] at named
  rw [named] at found
  rw [found] at oldest
  rw [aged, age, named, Option.some.inj oldest]
  exact Prod.Lex.toLex_lt_toLex.mpr (Or.inl Nat.zero_lt_one)

theorem answer_before_question :
    ((gapEvents gapCall gapTables).1.lookup answer.eventId).map Event.prevEvents = some [question.eventId] ∧
    question.eventId ∈ (gapEvents gapCall gapTables).1 ∧
    (fillGap gapCall gapTables).1.map (fun turn => (turn.eventId, turn.attempted)) =
      [(answer.eventId, true), (question.eventId, true)] := by
  decide +kernel

end Sample

end Phantom.EventHandler
