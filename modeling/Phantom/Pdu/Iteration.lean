import Phantom.Lib.Outcome
import Phantom.Matrix.Event
import Phantom.Pdu.Neighbours

namespace Phantom.Pdu

open Phantom.Lib Phantom.Matrix

inductive TimelineError where
  | roomNotFound (roomId : RoomId)
deriving DecidableEq

/-- The table of timeline rows: its keys are those of ids with a stored count. -/
structure PduidPdu (V : Type) where
  map : BTreeMap Bytes V
  stored : ∀ key ∈ map.keys, ∃ id : Id, id.shorteventid.Stored ∧ (RawId.fromId id).asBytes = key

section Streams

variable {V : Type} (shorts : RoomId → Option UInt64) (table : PduidPdu V) (roomId : RoomId) (position : Count)

def countToId (dir : Direction) : Outcome TimelineError RawId := do
  let shortroomid ← Outcome.ofOption (.roomNotFound roomId) (shorts roomId)
  return RawId.fromId ⟨shortroomid, position.saturatingInc dir⟩

def eachPdu (entry : Bytes × V) : Outcome TimelineError (Count × V) := do
  let raw ← Outcome.expect "unrecognized RawId length" (RawId.fromBytes entry.1)
  return (raw.pduCount, entry.2)

def startsWith (room : Bytes) (entry : Bytes × V) : Bool := decide (entry.1.take room.length = room)

def pdus : Outcome TimelineError (List (Count × V)) := do
  let current ← countToId shorts roomId position .forward
  ((table.map.seek current.asBytes).takeWhile (startsWith current.shortroomid)).mapM eachPdu

def pdusRev : Outcome TimelineError (List (Count × V)) := do
  let current ← countToId shorts roomId position .backward
  ((table.map.seekForPrev current.asBytes).takeWhile (startsWith current.shortroomid)).mapM eachPdu

end Streams

def rowKey (short : UInt64) (count : Count) : Bytes := (RawId.fromId ⟨short, count⟩).asBytes

def PduidPdu.Holds {V : Type} (table : PduidPdu V) (short : UInt64) (count : Count) (value : V) : Prop :=
  (rowKey short count, value) ∈ table.map.entries

instance {V : Type} [DecidableEq V] (table : PduidPdu V) (short : UInt64) (count : Count) (value : V) :
    Decidable (table.Holds short count value) := inferInstanceAs (Decidable (_ ∈ _))

def Count.read : Count → Count
  | .normal count => .fromUnsigned count
  | .backfilled count => .fromUnsigned count.toUInt64

section Rows

variable {V : Type} {shorts : RoomId → Option UInt64} {table : PduidPdu V} {roomId : RoomId} {short : UInt64}
variable {pos count : Count} {value : V}
variable {other : UInt64} {later : Count}

theorem suffix_injective : Function.Injective Count.suffix := by
  intro left right same
  have ranks : left.rank = right.rank := by
    have below : ¬ left.rank < right.rank := by
      rw [← suffix_lt, same]
      exact lt_irrefl _
    have above : ¬ right.rank < left.rank := by
      rw [← suffix_lt, same]
      exact lt_irrefl _
    omega
  have lengths := congrArg List.length same
  cases left with
  | normal left =>
    cases right with
    | normal right => rw [toBeBytes_injective same]
    | backfilled right => simp [Count.suffix] at lengths
  | backfilled left =>
    cases right with
    | normal right => simp [Count.suffix] at lengths
    | backfilled right =>
      simp only [Count.rank] at ranks
      have words : left.toUInt64 = right.toUInt64 := UInt64.toNat.inj (by omega)
      cases left
      cases right
      grind

theorem fromId_injective {left right : Id} (same : (RawId.fromId left).asBytes = (RawId.fromId right).asBytes) :
    left = right := by
  rw [asBytes_fromId, asBytes_fromId] at same
  obtain ⟨rooms, suffixes⟩ := List.append_inj same (by simp)
  rw [Id.mk.injEq]
  exact ⟨toBeBytes_injective rooms, suffix_injective suffixes⟩

theorem rowKey_inj (same : rowKey short count = rowKey other later) :
    short = other ∧ count = later := Id.mk.inj (fromId_injective same)

variable {entry : Bytes × V}

theorem exists_row (mem : entry ∈ table.map.entries) : ∃ short count, count.Stored ∧ entry.1 = rowKey short count := by
  obtain ⟨id, stored, key⟩ := table.stored entry.1 (List.mem_map.mpr ⟨entry, mem, rfl⟩)
  exact ⟨id.shortroomid, id.shorteventid, stored, key.symm⟩

theorem stored_of_holds (holds : table.Holds short count value) : count.Stored := by
  obtain ⟨other, found, stored, key⟩ := exists_row holds
  rw [(rowKey_inj key).2]
  exact stored

theorem startsWith_rowKey : startsWith (toBeBytes short) (rowKey other count, value) = true ↔ other = short := by
  unfold startsWith rowKey
  rw [decide_eq_true_eq, asBytes_fromId, List.take_left' (by simp), toBeBytes_injective.eq_iff]

theorem rowKey_lt : rowKey short count < rowKey other later ↔
    short.toNat < other.toNat ∨ short = other ∧ count.rank < later.rank := asBytes_lt

theorem exists_rows {entries : List (Bytes × V)} (rows : ∀ entry ∈ entries, ∃ count, entry.1 = rowKey short count) :
    ∃ items : List (Count × V), items.map (fun item => (rowKey short item.1, item.2)) = entries := by
  induction entries with
  | nil => exact ⟨[], rfl⟩
  | cons entry entries ih =>
    obtain ⟨items, shape⟩ := ih fun other mem => rows other (List.mem_cons_of_mem _ mem)
    obtain ⟨count, key⟩ := rows entry List.mem_cons_self
    refine ⟨(count, entry.2) :: items, ?_⟩
    rw [List.map_cons, shape, ← key]

theorem mapM_eachPdu (items : List (Count × V)) :
    (items.map fun item => (rowKey short item.1, item.2)).mapM eachPdu =
      (.ok (items.map fun item => (item.1.read, item.2)) : Outcome TimelineError (List (Count × V))) := by
  induction items with
  | nil => rfl
  | cons item items ih =>
    have read : eachPdu (rowKey short item.1, item.2) = .ok (item.1.read, item.2) := by
      simp only [eachPdu, rowKey, fromBytes_fromId, Outcome.expect, Outcome.ok_bind, pduCount_fromId]
      cases item.1 with
      | normal count | backfilled count => rfl
    grind [Outcome.ok_bind, Outcome.pure_eq_ok]

theorem room_between {low high count : Count} {room : UInt64} (above : rowKey short low ≤ rowKey room count)
    (below : rowKey room count ≤ rowKey short high) : room = short := by
  have from_low := not_lt.mpr above
  have to_high := not_lt.mpr below
  grind [rowKey_lt, UInt64.toNat.inj]

theorem startsWith_iff (mem : entry ∈ table.map.entries) :
    startsWith (toBeBytes short) entry = true ↔ ∃ count, entry.1 = rowKey short count := by
  grind [exists_row, startsWith_rowKey]

theorem rowKey_le : rowKey short count ≤ rowKey short later ↔ count.rank ≤ later.rank := by
  rw [← not_lt, rowKey_lt, ← not_lt]
  simp

theorem rows_of_range (table : PduidPdu V) (reached : Bytes → Bool) {met : Count → Prop}
    (same : ∀ count, reached (rowKey short count) = true ↔ met count) : ∃ rows : List (Count × V),
      rows.map (fun row => (rowKey short row.1, row.2)) =
        table.map.entries.filter (fun entry => reached entry.1 && startsWith (toBeBytes short) entry) ∧
      (∀ count value, (count, value) ∈ rows ↔ table.Holds short count value ∧ met count) ∧
      rows.Pairwise (fun left right => left.1.rank < right.1.rank) := by
  have keyed : ∀ entry ∈ table.map.entries.filter fun entry => reached entry.1 && startsWith (toBeBytes short) entry,
      ∃ count, entry.1 = rowKey short count := by
    grind [startsWith_iff]
  have sorted := table.map.sorted.filter fun entry => reached entry.1 && startsWith (toBeBytes short) entry
  obtain ⟨rows, shape⟩ := exists_rows keyed
  rw [← shape, List.pairwise_map] at sorted
  refine ⟨rows, shape, ?_, sorted.imp ?_⟩
  · intro count value
    have listed : (count, value) ∈ rows ↔ (rowKey short count, value) ∈
        rows.map (fun row => (rowKey short row.1, row.2)) := by
      grind [rowKey_inj]
    rw [listed, shape, List.mem_filter, Bool.and_eq_true, same]
    constructor
    · rintro ⟨holds, inRange, _⟩
      exact ⟨holds, inRange⟩
    · rintro ⟨holds, inRange⟩
      exact ⟨holds, inRange, startsWith_rowKey.mpr rfl⟩
  · grind [rowKey_lt]

theorem pdus_rows (known : shorts roomId = some short) (table : PduidPdu V) (pos : Count) : ∃ rows : List (Count × V),
      pdus shorts table roomId pos = .ok (rows.map fun row => (row.1.read, row.2)) ∧
      (∀ count value, (count, value) ∈ rows ↔
        table.Holds short count value ∧ (pos.saturatingInc .forward).rank ≤ count.rank) ∧
      rows.Pairwise (fun left right => left.1.rank < right.1.rank) := by
  obtain ⟨rows, shape, members, sorted⟩ := @rows_of_range V short table
    (fun key => decide (rowKey short (pos.saturatingInc .forward) ≤ key))
    (fun count => (pos.saturatingInc .forward).rank ≤ count.rank) fun count => by rw [decide_eq_true_eq, rowKey_le]
  refine ⟨rows, ?_, members, sorted⟩
  have scan := @BTreeMap.takeWhile_seek Bytes V _ table.map (rowKey short (pos.saturatingInc .forward))
  simp only [pdus, countToId, known, Outcome.ofOption_some, Outcome.ok_bind, Outcome.pure_eq_ok, shortroomid_fromId]
  rw [← rowKey, scan, ← shape, mapM_eachPdu]
  grind [startsWith_iff, exists_row, room_between]

theorem pdusRev_rows (known : shorts roomId = some short) (table : PduidPdu V) (pos : Count) :
    ∃ rows : List (Count × V), pdusRev shorts table roomId pos = .ok (rows.map fun row => (row.1.read, row.2)) ∧
      (∀ count value, (count, value) ∈ rows ↔
        table.Holds short count value ∧ count.rank ≤ (pos.saturatingInc .backward).rank) ∧
      rows.Pairwise (fun left right => right.1.rank < left.1.rank) := by
  obtain ⟨rows, shape, members, sorted⟩ := @rows_of_range V short table
    (fun key => decide (key ≤ rowKey short (pos.saturatingInc .backward)))
    (fun count => count.rank ≤ (pos.saturatingInc .backward).rank) fun count => by rw [decide_eq_true_eq, rowKey_le]
  refine ⟨rows.reverse, ?_, ?_, List.pairwise_reverse.mpr sorted⟩
  · have scan := @BTreeMap.takeWhile_seekForPrev Bytes V _ table.map (rowKey short (pos.saturatingInc .backward))
    simp only [pdusRev, countToId, known, Outcome.ofOption_some, Outcome.ok_bind, Outcome.pure_eq_ok,
      shortroomid_fromId]
    rw [← rowKey, scan, ← shape, ← List.map_reverse, mapM_eachPdu]
    grind [startsWith_iff, exists_row, room_between]
  · grind

theorem read_of_signed (stored : count.Stored) (signed : count.value < 2 ^ 63) : count.read = count := by
  cases count with
  | normal count =>
    have first : 1 ≤ count.toNat := stored
    have word := toInt_toInt64 count
    have low : (count.toNat : Int) < 2 ^ 63 := signed
    simp only [Count.read, Count.fromUnsigned, Count.fromSigned]
    rw [if_neg (by omega)]
    rfl
  | backfilled count =>
    have negative : count.toInt ≤ -1 := stored
    have same : count.toUInt64.toInt64 = count := rfl
    simp only [Count.read, Count.fromUnsigned, Count.fromSigned, same]
    rw [if_pos (by omega)]

theorem read_value_lt (count : Count) : count.read.value < 2 ^ 63 := by
  have signed : ∀ word : Int64, (Count.fromSigned word).value < 2 ^ 63 := by
    intro word
    have bound := word.toInt_lt
    grind [toNat_toUInt64, Count.fromSigned, Count.value]
  cases count with
  | normal count | backfilled count => exact signed _

end Rows

def Yields {V : Type} (table : PduidPdu V) (short : UInt64) (order : Int → Int → Prop) (wanted : Count → Prop)
    (items : List (Count × V)) : Prop :=
  (∀ count value, (count, value) ∈ items ↔ table.Holds short count value ∧ wanted count) ∧
    items.Pairwise fun left right => order left.1.value right.1.value

section Exactness

variable {V : Type} {shorts : RoomId → Option UInt64} {table : PduidPdu V} {roomId : RoomId} {short : UInt64}
variable {position pos : Count}
variable {count : Count} {value : V}

/-- `pdus` yields the rows after the position in ascending and `pdus_rev` those before it in descending order. -/
def Exact (shorts : RoomId → Option UInt64) (table : PduidPdu V) (roomId : RoomId) (short : UInt64) (position : Count) :
    Prop :=
  (∃ items, pdus shorts table roomId position = .ok items ∧
    Yields table short (· < ·) (fun count => position.value < count.value) items) ∧
  ∃ items, pdusRev shorts table roomId position = .ok items ∧
    Yields table short (· > ·) (fun count => count.value < position.value) items

/-- Around zero the room has no backfilled row, at a count without a neighbour it has no row, and its rows elsewhere
    have counts that fit a signed word. -/
structure Regular (table : PduidPdu V) (short : UInt64) (position : Count) : Prop where
  seam : -1 ≤ position.value → position.value ≤ 1 → ∀ count value, table.Holds short count value →
    count.isBackfilled = false
  last : position.saturated = true → ∀ value, ¬ table.Holds short position value
  signed : ∀ count value, table.Holds short count value → count ≠ position → count.value < 2 ^ 63

theorem Regular.clear (regular : Regular table short pos)
    (holds : table.Holds short count value) : Clear pos count where
  seam low high := regular.seam low high count value holds
  last top same := by
    rw [same] at holds
    exact regular.last top value holds

variable {order : Int → Int → Prop}

theorem yields_rows {ranked : Count → Count → Prop} {met wanted : Count → Prop} {rows : List (Count × V)}
    (regular : Regular table short pos)
    (members : ∀ count value, (count, value) ∈ rows ↔ table.Holds short count value ∧ met count)
    (sorted : rows.Pairwise fun left right => ranked left.1 right.1)
    (same : ∀ count value, table.Holds short count value → (met count ↔ wanted count)) (elsewhere : ¬ wanted pos)
    (ordered : ∀ left right : Count, left.Stored → right.Stored → ranked left right → order left.value right.value) :
    Yields table short order wanted (rows.map fun row => (row.1.read, row.2)) := by
  have unread : rows.map (fun row => (row.1.read, row.2)) = rows := by
    have each : ∀ row ∈ rows, ((row.1.read, row.2) : Count × V) = id row := by
      grind [Regular.signed, read_of_signed, stored_of_holds]
    rw [List.map_congr_left each, List.map_id]
  rw [unread]
  constructor
  · intro count value
    constructor
    · grind
    · grind
  · apply sorted.imp_of_mem
    grind [stored_of_holds]

theorem exact_of_regular (known : shorts roomId = some short) (valid : pos.Valid)
    (regular : Regular table short pos) : Exact shorts table roomId short pos := by
  obtain ⟨rows, scanned, members, sorted⟩ := pdus_rows known table pos
  obtain ⟨rowsRev, scannedRev, membersRev, sortedRev⟩ := pdusRev_rows known table pos
  refine ⟨⟨_, scanned, ?_⟩, ⟨_, scannedRev, ?_⟩⟩
  · apply @yields_rows V table short pos (· < ·) (fun left right => left.rank < right.rank) _ _ rows regular members
      sorted
    · grind [rank_forward, stored_of_holds, Regular.clear]
    · exact lt_irrefl _
    · grind [rank_lt_iff]
  · apply @yields_rows V table short pos (· > ·) (fun left right => right.rank < left.rank) _ _ rowsRev regular
      membersRev sortedRev
    · grind [rank_backward, stored_of_holds, Regular.clear]
    · exact lt_irrefl _
    · grind [rank_lt_iff]

theorem read_of_yields {met wanted : Count → Prop} {rows items : List (Count × V)}
    (scanned : (.ok (rows.map fun row => (row.1.read, row.2)) : Outcome TimelineError _) = .ok items)
    (members : ∀ count value, (count, value) ∈ rows ↔ table.Holds short count value ∧ met count)
    (yields : Yields table short order wanted items) (holds : table.Holds short count value) :
    (met count → wanted count.read) ∧
      (wanted count → ∃ other : Count, (table.Holds short other value ∧ met other) ∧ other.read = count) := by
  cases scanned
  constructor
  · intro reached
    have mem : (count.read, value) ∈ rows.map (fun row => (row.1.read, row.2)) :=
      List.mem_map.mpr ⟨(count, value), (members count value).mpr ⟨holds, reached⟩, rfl⟩
    exact ((yields.1 count.read value).mp mem).2
  · intro sought
    obtain ⟨row, mem, same⟩ := List.mem_map.mp ((yields.1 count value).mpr ⟨holds, sought⟩)
    obtain ⟨read, rfl⟩ := Prod.mk.inj same
    exact ⟨row.1, (members row.1 row.2).mp mem, read⟩

section

variable (known : shorts roomId = some short)
include known

theorem exact_forward (exact_ : Exact shorts table roomId short pos) (holds : table.Holds short count value) :
    ((pos.saturatingInc .forward).rank ≤ count.rank → pos.value < count.read.value) ∧
      (pos.value < count.value → ∃ other : Count, (table.Holds short other value ∧
        (pos.saturatingInc .forward).rank ≤ other.rank) ∧ other.read = count) := by
  obtain ⟨items, yielded, yields⟩ := exact_.1
  obtain ⟨rows, scanned, members, _⟩ := pdus_rows known table pos
  exact read_of_yields (scanned.symm.trans yielded) members yields holds

theorem exact_backward (exact_ : Exact shorts table roomId short pos) (holds : table.Holds short count value) :
    (count.rank ≤ (pos.saturatingInc .backward).rank → count.read.value < pos.value) ∧
      (count.value < pos.value → ∃ other : Count, (table.Holds short other value ∧
        other.rank ≤ (pos.saturatingInc .backward).rank) ∧ other.read = count) := by
  obtain ⟨items, yielded, yields⟩ := exact_.2
  obtain ⟨rows, scanned, members, _⟩ := pdusRev_rows known table pos
  exact read_of_yields (scanned.symm.trans yielded) members yields holds

theorem seam_of_exact (valid : pos.Valid) (exact_ : Exact shorts table roomId short pos) (low : -1 ≤ pos.value)
    (high : pos.value ≤ 1) {count : Count} {value : V} (holds : table.Holds short count value) :
    count.isBackfilled = false := by
  cases count with
  | normal count => rfl
  | backfilled count =>
    have negative : count.toInt ≤ -1 := stored_of_holds holds
    have rank := rank_stored (stored_of_holds holds)
    cases pos with
    | normal near =>
      simp only [Count.value] at low high
      have before : (Count.backfilled count).value < (Count.normal near).value := by
        simp only [Count.value]
        omega
      obtain ⟨other, ⟨otherHolds, reached⟩, _⟩ := (exact_backward known exact_ holds).2 before
      have start := rank_backward_normal near
      have otherRank := rank_stored (stored_of_holds otherHolds)
      omega
    | backfilled near =>
      simp only [Count.value] at low high
      have start := rank_forward_backfilled valid
      have after := (exact_forward known exact_ holds).1 (by omega)
      grind [read_of_signed, stored_of_holds, Count.value]

theorem last_of_exact (exact_ : Exact shorts table roomId short pos) (last : pos.saturated = true) (value : V) :
    ¬ table.Holds short pos value := by
  intro holds
  have rank := rank_stored (stored_of_holds holds)
  have last := of_decide_eq_true last
  have signed := read_value_lt pos
  cases pos with
  | normal count =>
    have own : (Count.normal count).value = count.toNat := rfl
    have start := rank_forward_normal count
    have after := (exact_forward known exact_ holds).1 (by omega)
    omega
  | backfilled count =>
    have negative : count.toInt ≤ -1 := stored_of_holds holds
    have own : (Count.backfilled count).value = count.toInt := rfl
    have start := @rank_backward_backfilled count (by omega)
    have before := (exact_backward known exact_ holds).1 (by omega)
    grind [read_of_signed, stored_of_holds, Count.value]

end

/-- The streams are exact at a position if and only if the room is regular there. -/
theorem pdus_exact_iff (known : shorts roomId = some short) (valid : position.Valid) :
    Exact shorts table roomId short position ↔ Regular table short position := by
  constructor
  · intro exact_
    refine ⟨?_, last_of_exact known exact_, ?_⟩
    · grind [seam_of_exact]
    · intro count value holds apart
      rcases Int.lt_trichotomy position.value count.value with less | same | more
      · obtain ⟨other, _, rfl⟩ := (exact_forward known exact_ holds).2 less
        exact read_value_lt other
      · exact absurd (eq_of_value valid (stored_of_holds holds) same.symm) apart
      · obtain ⟨other, _, rfl⟩ := (exact_backward known exact_ holds).2 more
        exact read_value_lt other
  · exact exact_of_regular known valid

end Exactness

namespace Sample

def room : RoomId := ⟨"!room:here"⟩

def shorts (_ : RoomId) : Option UInt64 := some 7

def key (count : Count) : Bytes := rowKey 7 count

theorem stored_insert {table : PduidPdu String} {count : Count} (stored : count.Stored) (value : String) :
    ∀ found ∈ (table.map.insert (key count) value).keys,
      ∃ id : Id, id.shorteventid.Stored ∧ (RawId.fromId id).asBytes = found := by
  intro found mem
  obtain ⟨entry, inside, same⟩ := List.mem_map.mp mem
  rcases BTreeMap.mem_insertEntry inside with made | inside
  · rw [← same, made]
    exact ⟨⟨7, count⟩, stored, rfl⟩
  · rw [← same]
    exact table.stored entry.1 (List.mem_map.mpr ⟨entry, inside, rfl⟩)

def none_yet : PduidPdu String := ⟨.empty, fun _ member => absurd member List.not_mem_nil⟩

def add (count : Count) (stored : count.Stored) (value : String) (table : PduidPdu String) : PduidPdu String :=
  ⟨table.map.insert (key count) value, stored_insert stored value⟩

def table : PduidPdu String :=
  none_yet |> add (.backfilled (-1)) (by decide) "$old" |> add (.normal 1) (by decide) "$first"

/-- From the newest backfilled count on, the backfilled row comes again; before the first normal count there is
    nothing. -/
theorem seam_not_exact : pdus shorts table room (.backfilled (-1)) =
      .ok [(.backfilled (-1), "$old"), (.normal 1, "$first")] ∧ pdusRev shorts table room (.normal 1) = .ok [] ∧
    ¬ Exact shorts table room 7 (.backfilled (-1)) ∧ ¬ Exact shorts table room 7 (.normal 1) := by
  have held : table.Holds 7 (.backfilled (-1)) "$old" := by decide +kernel
  refine ⟨by decide +kernel, by decide +kernel, ?_, ?_⟩
  · intro exact_
    have seam := @seam_of_exact String shorts table room 7 (.backfilled (-1)) rfl (by decide) exact_ (by decide)
      (by decide) _ _ held
    cases seam
  · intro exact_
    have seam := @seam_of_exact String shorts table room 7 (.normal 1) rfl (by decide) exact_ (by decide)
      (by decide) _ _ held
    cases seam

theorem regular_two : Regular table 7 (.normal 2) := by
  refine ⟨fun _ high => absurd high (by decide), fun last => absurd last (by decide), ?_⟩
  intro count value holds _
  rcases List.mem_cons.mp holds with same | holds
  · rw [(rowKey_inj (Prod.mk.inj same).1).2]
    decide
  · rw [(rowKey_inj (Prod.mk.inj (List.mem_singleton.mp holds)).1).2]
    decide

/-- Away from the seam both streams are exact. -/
theorem pdus_exact_two : Regular table 7 (.normal 2) ∧ Exact shorts table room 7 (.normal 2) :=
  ⟨regular_two, (@pdus_exact_iff String shorts table room 7 (.normal 2) rfl trivial).mpr regular_two⟩

end Sample

end Phantom.Pdu
