import Mathlib.Data.List.Sort
import Phantom.Matrix.Ruma
import Phantom.SlidingSync.Connection

namespace Phantom.SlidingSync

open Phantom.Lib Phantom.Matrix

structure WindowRoom where
  roomId : RoomId
  membership : Option MembershipState
  lists : List ListId
  eventCount : Nat
  payloadCount : Nat
deriving DecidableEq

def WindowRoom.payloadIsFresh (room : WindowRoom) (roomsince : Nat) : Bool :=
  roomsince == 0 || decide (room.payloadCount > roomsince)

structure ActivityProbe where
  count : Option Nat
  failed : Bool
deriving DecidableEq

def ActivityProbe.none : ActivityProbe := ⟨Option.none, false⟩

structure ActivityCounts where
  timeline : Option Nat
  notification : Option Nat
  membership : Option Nat
  payloadProbeFailed : Bool

def membershipOnly : Option MembershipState → Bool
  | some .invite | some .knock | some .leave | some .ban => true
  | _ => false

def departed : Option MembershipState → Bool
  | some .leave | some .ban => true
  | _ => false

def boundedCount (nextBatch : Nat) (count : Option Nat) : Nat :=
  (count.filter fun count => decide (nextBatch ≥ count)).getD 0

def activityCounts (membership : Option MembershipState) (nextBatch : Nat) (counts : ActivityCounts) : Nat × Nat :=
  let timeline := boundedCount nextBatch counts.timeline
  let notification := boundedCount nextBatch counts.notification
  let membershipCount := boundedCount nextBatch counts.membership
  let eventCount := if membershipOnly membership then membershipCount else max timeline membershipCount
  let freshCount :=
    if membershipOnly membership then membershipCount else max (max timeline notification) membershipCount
  let payloadCount := if counts.payloadProbeFailed then nextBatch else freshCount
  (eventCount, payloadCount)

/-- `activity_probe`: an error is reported and counts as a failed probe. -/
def activityProbe : Option Nat → ActivityProbe
  | some count => ⟨some count, false⟩
  | Option.none => ⟨Option.none, true⟩

/-- A room that the selector comes across, with the user's membership in it and the lists whose filters let it
    through. -/
structure Candidate where
  roomId : RoomId
  membership : Option MembershipState
  filtered : List ListId
deriving DecidableEq

/-- What was read for a room so far. Each is read in its own time. -/
structure Probes where
  timeline : Option ActivityProbe
  notification : Option ActivityProbe
  membership : Option ActivityProbe

def Probes.unread : Probes := ⟨none, none, none⟩

variable (conn : Connection)

def matchedLists (candidate : Candidate) : List ListId :=
  (conn.lists.entries.filter fun entry => entry.2.filters.isNone || candidate.filtered.contains entry.1).map Prod.fst

def subscribed (roomId : RoomId) : Bool :=
  conn.subscriptions.any fun entry => decide (entry.1 = roomId)

def Probes.ready (probes : Probes) (membership : Option MembershipState) : Bool :=
  if membershipOnly membership then probes.membership.isSome
  else probes.timeline.isSome && probes.notification.isSome

def matcher (probes : Probes) (candidate : Candidate) : Option WindowRoom :=
  let lists := matchedLists conn candidate
  let selected := !lists.isEmpty || subscribed conn candidate.roomId || departed candidate.membership
  if selected then
    let only := membershipOnly candidate.membership
    let lastNotification := if only then .none else probes.notification.getD .none
    let lastTimeline := if only then .none else probes.timeline.getD .none
    let lastMembership := if only then probes.membership.getD .none else .none
    let (eventCount, payloadCount) := activityCounts candidate.membership conn.nextBatch
      ⟨lastTimeline.count, lastNotification.count, lastMembership.count, lastTimeline.failed || lastMembership.failed⟩
    some ⟨candidate.roomId, candidate.membership, lists, eventCount, payloadCount⟩
  else none

def roomSort (left right : WindowRoom) : Bool :=
  decide (right.eventCount < left.eventCount) ||
    (decide (left.eventCount = right.eventCount) && decide (left.roomId.asStr ≤ right.roomId.asStr))

def detachedRoom (room : WindowRoom) : WindowRoom := { room with lists := [] }

variable (rooms : List WindowRoom)

def selectListRange (id : ListId) (start stop : Nat) : List WindowRoom :=
  let listed := (rooms.filter fun room => room.lists.contains id).filter (fun room => !departed room.membership)
  (listed.drop start).take (stop + 1 - start)

def responseLists : List ListId :=
  conn.lists.keys.filter fun id => rooms.any fun room => !departed room.membership && room.lists.contains id

def selections : List WindowRoom :=
  (responseLists conn rooms).flatMap (fun id =>
    match conn.lists.get id with
    | none => []
    | some list =>
      if list.ranges.isEmpty then rooms.filter fun room => room.lists.contains id && !departed room.membership
      else list.ranges.flatMap fun range => selectListRange rooms id range.1 range.2)

def retractions : List WindowRoom :=
  (rooms.filter fun room => departed room.membership && (conn.rooms room.roomId).any fun known =>
      decide (known.roomsince ≠ 0) && decide (room.payloadCount > known.roomsince)).map detachedRoom

variable (probes : RoomId → Probes)

/-- The subscribed rooms that pass the filter on their metadata, those that the selector did not come across
    looked up for themselves. -/
def subscriptions (rooms : List WindowRoom)
    (passing : List Candidate) : List WindowRoom :=
  (passing.filter fun candidate => subscribed conn candidate.roomId).filterMap (fun candidate =>
    match rooms.find? (fun room => decide (room.roomId = candidate.roomId)) with
    | some room => some (detachedRoom room)
    | none => (matcher conn (probes candidate.roomId) candidate).map detachedRoom)

def collectWindow : List WindowRoom :=
  rooms.foldl (fun window room => room :: window.filter fun other => decide (other.roomId ≠ room.roomId)) []

def window (rooms : List WindowRoom) (passing : List Candidate) :
    List WindowRoom :=
  collectWindow (retractions conn rooms ++ subscriptions conn probes rooms passing ++ selections conn rooms)

def matchedRooms (candidates : List Candidate) : List WindowRoom :=
  (candidates.filterMap fun candidate => matcher conn (probes candidate.roomId) candidate).insertionSort
    (fun left right => roomSort left right = true)

def trackRooms : Connection :=
  { conn with rooms := fun roomId =>
      if rooms.any (fun room => decide (room.roomId = roomId)) then some (conn.room roomId) else conn.rooms roomId }

section Matching

variable {conn : Connection} {probes : RoomId → Probes} {candidate : Candidate} {rooms : List WindowRoom}
variable {room : WindowRoom} {nextBatch count : Nat}
variable {candidates : List Candidate}

theorem le_boundedCount (covered : count ≤ nextBatch) : count ≤ boundedCount nextBatch (some count) := by
  grind [boundedCount]

variable {probe : Probes}

theorem matcher_roomId (matched : matcher conn probe candidate = some room) :
    room.roomId = candidate.roomId ∧ room.membership = candidate.membership := by
  grind [matcher]

theorem le_payloadCount (matched : matcher conn probe candidate = some room)
    (whole : membershipOnly room.membership = false) {timeline : ActivityProbe}
    (read : probe.timeline = some timeline)
    (bound : timeline.failed = true ∧ count ≤ conn.nextBatch ∨ ∃ last, timeline.count = some last ∧ count ≤ last ∧
    last ≤ conn.nextBatch) :
    count ≤ room.payloadCount := by
  unfold matcher at matched
  dsimp only at matched
  split at matched
  · cases matched
    simp only [activityCounts, whole, read, Option.getD_some, Bool.false_eq_true, if_false]
    by_cases failed : timeline.failed = true
    · have covered : count ≤ conn.nextBatch := by
        rcases bound with ⟨_, covered⟩ | ⟨last, _, less, covered⟩
        · exact covered
        · omega
      simp only [failed, Bool.true_or, if_true]
      exact covered
    · rcases bound with ⟨broken, _⟩ | ⟨last, held, less, covered⟩
      · exact absurd broken failed
      · have kept := le_boundedCount covered
        simp only [failed, held, ActivityProbe.none, Bool.or_false, Bool.false_eq_true, if_false]
        omega
  · cases matched

/-- A room with what it was matched with. Where it is in the window on its own account, it has no lists. -/
structure Matched (conn : Connection) (probes : RoomId → Probes) (candidates : List Candidate) (room : WindowRoom) :
    Prop where
  source : ∃ candidate ∈ candidates, ∃ found, matcher conn (probes candidate.roomId) candidate = some found ∧
    room.roomId = found.roomId ∧ room.membership = found.membership ∧ room.payloadCount = found.payloadCount

theorem Matched.detached (matched : Matched conn probes candidates room) :
    Matched conn probes candidates (detachedRoom room) := ⟨matched.source⟩

theorem Matched.mono {more : List Candidate} (matched : Matched conn probes candidates room)
    (subset : candidates ⊆ more) : Matched conn probes more room := by
  obtain ⟨candidate, mem, found, matched, same⟩ := matched.source
  exact ⟨candidate, subset mem, found, matched, same⟩

theorem mem_matchedRooms (mem : room ∈ matchedRooms conn probes candidates) :
    Matched conn probes candidates room := by
  rw [matchedRooms, List.mem_insertionSort, List.mem_filterMap] at mem
  obtain ⟨candidate, listed, matched⟩ := mem
  exact ⟨candidate, listed, room, matched, rfl, rfl, rfl⟩

theorem mem_selectListRange {id : ListId} {start stop : Nat} (mem : room ∈ selectListRange rooms id start stop) :
    room ∈ rooms := by
  have listed := List.mem_of_mem_drop (List.mem_of_mem_take mem)
  grind

theorem mem_selections (mem : room ∈ selections conn rooms) : room ∈ rooms := by
  obtain ⟨id, _, mem⟩ := List.mem_flatMap.mp mem
  grind [mem_selectListRange]

theorem mem_collectWindow (mem : room ∈ collectWindow rooms) : room ∈ rooms := by
  have kept : ∀ (rooms window : List WindowRoom), room ∈ rooms.foldl (fun window room =>
      room :: window.filter fun other => decide (other.roomId ≠ room.roomId)) window → room ∈ rooms ∨
        room ∈ window := by
    intro rooms
    induction rooms with
    | nil => exact fun _ mem => Or.inr mem
    | cons first rooms ih =>
      grind
  exact (kept rooms [] mem).resolve_right List.not_mem_nil

theorem mem_window {passing : List Candidate}
    (mem : room ∈ window conn probes (matchedRooms conn probes candidates) passing) :
    Matched conn probes (candidates ++ passing) room := by
  have listed : ∀ {room}, room ∈ matchedRooms conn probes candidates →
      Matched conn probes (candidates ++ passing) room :=
    fun mem => (mem_matchedRooms mem).mono (List.subset_append_left _ _)
  rcases List.mem_append.mp (mem_collectWindow mem) with mem | mem
  · rcases List.mem_append.mp mem with mem | mem
    · obtain ⟨found, inside, same⟩ := List.mem_map.mp mem
      grind [Matched.detached]
    · obtain ⟨candidate, inside, found⟩ := List.mem_filterMap.mp mem
      split at found
      · grind [Matched.detached]
      · obtain ⟨other, matched, same⟩ := Option.map_eq_some_iff.mp found
        rw [← same]
        have passes := List.mem_append_right candidates (List.mem_of_mem_filter inside)
        exact Matched.detached ⟨candidate, passes, other, matched, rfl, rfl, rfl⟩
  · exact listed (mem_selections mem)

theorem nodup_collectWindow (rooms : List WindowRoom) : ((collectWindow rooms).map WindowRoom.roomId).Nodup := by
  have kept : ∀ (rooms window : List WindowRoom), (window.map WindowRoom.roomId).Nodup →
      ((rooms.foldl (fun window room =>
        room :: window.filter fun other =>
          decide (other.roomId ≠ room.roomId)) window).map WindowRoom.roomId).Nodup := by
    intro rooms
    induction rooms with
    | nil => exact fun _ nodup => nodup
    | cons first rooms ih =>
      intro window nodup
      apply ih
      rw [List.map_cons, List.nodup_cons]
      constructor
      · intro mem
        obtain ⟨other, inside, same⟩ := List.mem_map.mp mem
        have ne := (List.mem_filter.mp inside).2
        exact of_decide_eq_true ne same
      · exact nodup.sublist (List.filter_sublist.map _)
  exact kept rooms [] List.nodup_nil

@[simp] theorem room_trackRooms (conn : Connection) (rooms : List WindowRoom) (roomId : RoomId) :
    (trackRooms conn rooms).room roomId = conn.room roomId := by
  unfold Connection.room trackRooms
  dsimp only
  split
  · rfl
  · rfl

end Matching

end Phantom.SlidingSync
