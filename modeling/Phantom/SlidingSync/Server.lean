import Phantom.Lib.Runs
import Phantom.SlidingSync.Range
import Phantom.Sync.Timeline

namespace Phantom.SlidingSync

open Phantom.Lib Phantom.Matrix Function

/-- What sliding sync reads of a user's rooms. An event is given its count and gets its row under the room's
    lock, one event at a time. -/
structure Tables where
  count : Nat
  inserting : RoomId → Option (EventId × Nat)
  pduidPdu : RoomId → Nat → Option EventId
  lastNotificationRead : RoomId → Nat
  membershipCounts : RoomId → Option Nat

/-- A write to the tables. A receipt or a change of membership is stored under a count drawn before. -/
inductive Write where
  | nextCount
  | appendCount (roomId : RoomId) (eventId : EventId)
  | appendRow (roomId : RoomId)
  | notificationRead (roomId : RoomId) (count : Nat)
  | membership (roomId : RoomId) (count : Option Nat)

namespace Tables

def empty : Tables := ⟨0, fun _ => none, fun _ _ => none, fun _ => 0, fun _ => none⟩

def write (tables : Tables) : Write → Option Tables
  | .nextCount => some { tables with count := tables.count + 1 }
  | .appendCount roomId eventId =>
    match tables.inserting roomId with
    | some _ => none
    | none =>
      some { tables with
        count := tables.count + 1
        inserting := Function.update tables.inserting roomId (some (eventId, tables.count + 1)) }
  | .appendRow roomId =>
    match tables.inserting roomId with
    | none => none
    | some (eventId, count) =>
      some { tables with
        inserting := Function.update tables.inserting roomId none
        pduidPdu := Function.update tables.pduidPdu roomId
          (Function.update (tables.pduidPdu roomId) count (some eventId)) }
  | .notificationRead roomId count =>
    if count ≤ tables.count then
      some { tables with lastNotificationRead := Function.update tables.lastNotificationRead roomId count }
    else none
  | .membership roomId count =>
    if ∀ number ∈ count, number ≤ tables.count then
      some { tables with membershipCounts := Function.update tables.membershipCounts roomId count }
    else none

/-- The count of the room's newest event, or `PduCount::max()`. -/
def lastTimelineCount (tables : Tables) (roomId : RoomId) : Nat :=
  ((Sync.ascending (tables.pduidPdu roomId) tables.count).getLast?.map Prod.fst).getD (2 ^ 63 - 1)

end Tables

structure Pass where
  request : Request
  since : Nat
  conn : Connection

structure Collected where
  roomId : RoomId
  since : Nat
  upTo : Nat
  rows : Nat → Option EventId
  range : CompleteRange

structure Response where
  pos : Nat
  payloads : List (RoomId × PayloadRange)

inductive Phase where
  | idle
  | selecting (pass : Pass) (probes : RoomId → Probes)
  | collecting (pass : Pass) (window : List WindowRoom) (results : List (RoomId × Option Collected))
  | waiting (pass : Pass)
  | responded (response : Response)

/-- A move of a room's cursor, with the lost range of the room that no payload had followed yet. -/
structure Move extends Collected where
  owed : Option Nat

/-- The tables, the stored connection, the position that the client received last and where the request
    stands. The last four only record what happened: the newest position that was sampled, how the cursors
    moved, what the client received, and where the lost ranges started that no payload has followed. -/
structure World where
  tables : Tables
  stored : Option StoredConnection
  position : Nat
  phase : Phase
  sampled : Nat
  moves : List Move
  received : List (RoomId × PayloadRange)
  owed : RoomId → Option Nat

def World.init : World := ⟨.empty, none, 0, .idle, 0, [], [], fun _ => none⟩

inductive Label where
  | write (write : Write)
  | expire
  | request (request : Request) (restart : Bool)
  | probeTimeline (roomId : RoomId) (readable : Bool)
  | probeNotification (roomId : RoomId)
  | probeMembership (roomId : RoomId)
  | select (candidates passing : List Candidate)
  | collect (roomId : RoomId) (succeeds : Bool)
  | finish (otherUpdates : Bool)
  | wake
  | giveUp
  | fail
  | receive
  | lose

def configChangeNeedsPosition (configChanged caughtUp : Bool) (since : Nat) : Bool :=
  configChanged && caughtUp && decide (since ≠ 0)

namespace World

variable (world : World)

def setProbes (pass : Pass) (probes : RoomId → Probes) (roomId : RoomId)
    (change : Probes → Probes) : World :=
  { world with phase := .selecting pass (Function.update probes roomId (change (probes roomId))) }

def start (request : Request) (since : Nat) (conn : Connection) : World :=
  let nextBatch := world.tables.count
  let (conn, configChanged) :=
    Connection.updateCache request { conn with nextBatch := nextBatch, globalsince := min since nextBatch }
  let caughtUp := conn.globalsince == conn.nextBatch
  let drawn := configChangeNeedsPosition (configChanged || conn.owesOwnProfile) caughtUp since
  let nextBatch := if drawn then nextBatch + 1 else nextBatch
  let conn := Connection.updateRoomsPrologue (if since = 0 then none else some since)
    { conn with nextBatch := nextBatch }
  { world with
    tables := { world.tables with count := nextBatch }
    phase := .selecting ⟨request, since, conn⟩ fun _ => .unread
    sampled := nextBatch }

def begin (request : Request) (restart : Bool) : World :=
  let since := if restart then 0 else world.position
  if since = 0 then { world with stored := none, position := 0 }.start request 0 .default
  else
    match world.stored with
    | none => world
    | some stored => world.start request since (.load stored)

def respond (conn : Connection) (payloads : List (RoomId × PayloadRange)) : World :=
  { world with stored := some conn.toStored, phase := .responded ⟨conn.nextBatch, payloads⟩ }

def select (pass : Pass) (probes : RoomId → Probes) (candidates passing : List Candidate) : World :=
  let rooms := matchedRooms pass.conn probes candidates
  let conn := trackRooms pass.conn rooms
  let pass : Pass := { pass with conn := conn }
  if conn.globalsince < conn.nextBatch then
    { world with phase := .collecting pass (window conn probes rooms passing) [] }
  else { world with phase := .waiting pass }

variable (sha256 : List UInt8 → List UInt8)

def collected (world : World) (conn : Connection) (windowRoom : WindowRoom) :
    Collected where
  roomId := windowRoom.roomId
  since := (conn.room windowRoom.roomId).roomsince
  upTo := conn.nextBatch
  rows := world.tables.pduidPdu windowRoom.roomId
  range := collectRoom sha256 conn windowRoom

def completed (results : List (RoomId × Option Collected)) : List Collected := results.filterMap Prod.snd

def roomUpdates (complete : List Collected) : List (RoomId × Option UInt64) :=
  complete.map fun room => (room.roomId, room.range.config)

def intoPayloads (complete : List Collected) : List (RoomId × PayloadRange) :=
  complete.filterMap fun room => room.range.payload.map fun range => (room.roomId, range)

/-- The cursors of the complete rooms move. Without anything to send the request waits. -/
def finish (pass : Pass) (complete : List Collected) (otherUpdates : Bool) : World :=
  let conn := pass.conn.updateRoomsEpilogue (roomUpdates complete)
  let payloads := intoPayloads complete
  let world := { world with
    moves := complete.map (fun room => (⟨room, world.owed room.roomId⟩ : Move)) ++ world.moves
    owed := fun roomId => if payloads.any (fun payload => decide (payload.1 = roomId)) then none else world.owed roomId }
  if payloads.isEmpty && !otherUpdates then { world with phase := .waiting { pass with conn := conn } }
  else world.respond conn payloads

def lost (response : Response) : World :=
  { world with
    phase := .idle
    owed := fun roomId =>
      match response.payloads.find? (fun payload => decide (payload.1 = roomId)) with
      | some payload => some payload.2.since
      | none => world.owed roomId }

/-- The next step of the server, of the client or of whatever else writes to the tables. Which rooms the
    selector comes across, whether a read fails and what the extensions hold is left open. -/
def step (world : World) : Label → Option World
  | .write write => (world.tables.write write).map fun tables => { world with tables := tables }
  | .expire => some { world with stored := none }
  | .request request restart =>
    match world.phase with
    | .idle => some (world.begin request restart)
    | _ => none
  | .probeTimeline roomId readable =>
    match world.phase with
    | .selecting pass probes =>
      let probe := activityProbe (if readable then some (world.tables.lastTimelineCount roomId) else none)
      some (world.setProbes pass probes roomId fun probes => { probes with timeline := some probe })
    | _ => none
  | .probeNotification roomId =>
    match world.phase with
    | .selecting pass probes =>
      let probe : ActivityProbe := ⟨some (world.tables.lastNotificationRead roomId), false⟩
      some (world.setProbes pass probes roomId fun probes => { probes with notification := some probe })
    | _ => none
  | .probeMembership roomId =>
    match world.phase with
    | .selecting pass probes =>
      let probe := activityProbe (world.tables.membershipCounts roomId)
      some (world.setProbes pass probes roomId fun probes => { probes with membership := some probe })
    | _ => none
  | .select candidates passing =>
    match world.phase with
    | .selecting pass probes =>
      if (candidates ++ passing).all (fun candidate => (probes candidate.roomId).ready candidate.membership) then
        some (world.select pass probes candidates passing)
      else none
    | _ => none
  | .collect roomId succeeds =>
    match world.phase with
    | .collecting pass window results =>
      match window.find? (fun room => decide (room.roomId = roomId)) with
      | none => none
      | some windowRoom =>
        if results.any (fun result => decide (result.1 = roomId)) then none
        else
          let result := if succeeds then some (world.collected sha256 pass.conn windowRoom) else none
          some { world with phase := .collecting pass window ((roomId, result) :: results) }
    | _ => none
  | .finish otherUpdates =>
    match world.phase with
    | .collecting pass window results =>
      if window.all (fun room => results.any fun result => decide (result.1 = room.roomId)) then
        some (world.finish pass (completed results) otherUpdates)
      else none
    | _ => none
  | .wake =>
    match world.phase with
    | .waiting pass =>
      if pass.request.waits then
        let conn := { pass.conn with globalsince := pass.conn.nextBatch, nextBatch := world.tables.count }
        some { world with
          phase := .selecting { pass with conn := conn } (fun _ => .unread)
          sampled := world.tables.count }
      else none
    | _ => none
  | .giveUp =>
    match world.phase with
    | .waiting pass => some (world.respond pass.conn [])
    | _ => none
  | .fail =>
    match world.phase with
    | .selecting _ _ | .collecting _ _ _ | .waiting _ => some { world with phase := .idle }
    | _ => none
  | .receive =>
    match world.phase with
    | .responded response =>
      some { world with
        phase := .idle
        position := response.pos
        received := response.payloads ++ world.received }
    | _ => none
  | .lose =>
    match world.phase with
    | .responded response => some (world.lost response)
    | _ => none

def Step (world : World) (label : Label) (next : World) : Prop :=
  world.step sha256 label = some next

end World

structure Tables.Numbered (tables : Tables) : Prop where
  rows : ∀ roomId count eventId, tables.pduidPdu roomId count = some eventId → count ≤ tables.count
  inserting : ∀ roomId eventId count, tables.inserting roomId = some (eventId, count) → count ≤ tables.count

structure Tables.Counted (tables after : Tables) : Prop where
  count : tables.count ≤ after.count
  rows : after.pduidPdu = tables.pduidPdu
  inserting : ∀ roomId eventId count, after.inserting roomId = some (eventId, count) →
    tables.inserting roomId = some (eventId, count) ∨ count = after.count

section Writes

variable {t after : Tables} {write : Write} {roomId : RoomId}
variable {count : Nat}

theorem write_cases (written : t.write write = some after) :
    t.Counted after ∨ ∃ roomId eventId count, write = .appendRow roomId ∧
      t.inserting roomId = some (eventId, count) ∧ after = { t with
        inserting := update t.inserting roomId none
        pduidPdu := update t.pduidPdu roomId (update (t.pduidPdu roomId) count (some eventId)) } := by
  cases write with
  | nextCount =>
    cases written
    exact Or.inl ⟨Nat.le_succ _, rfl, fun _ _ _ held => Or.inl held⟩
  | appendCount roomId eventId =>
    simp only [Tables.write] at written
    split at written
    · cases written
    · cases written
      refine Or.inl ⟨Nat.le_succ _, rfl, ?_⟩
      grind
  | appendRow roomId =>
    grind [Tables.write]
  | notificationRead roomId count | membership roomId count =>
    simp only [Tables.write] at written
    split at written
    · cases written
      exact Or.inl ⟨Nat.le_refl _, rfl, fun _ _ _ held => Or.inl held⟩
    · cases written

theorem write_count (written : t.write write = some after) : t.count ≤ after.count := by
  rcases write_cases written with counted | ⟨_, _, _, _, _, rfl⟩
  · exact counted.count
  · exact Nat.le_refl _

variable {eventId : EventId}

theorem write_row (written : t.write write = some after) (held : after.pduidPdu roomId count = some eventId) :
    t.pduidPdu roomId count = some eventId ∨
    (write = .appendRow roomId ∧ t.inserting roomId = some (eventId, count)) := by
  rcases write_cases written with counted | ⟨other, event, n, kind, waiting, rfl⟩
  · rw [counted.rows] at held
    exact Or.inl held
  · by_cases here : roomId = other
    · subst here
      by_cases this : count = n
      · simp only [update_self, this, Option.some.injEq] at held
        grind
      · simp only [update_self, update_of_ne this] at held
        exact Or.inl held
    · simp only [update_of_ne here] at held
      exact Or.inl held

theorem numbered_write (numbered : t.Numbered) (written : t.write write = some after) : after.Numbered := by
  have more := write_count written
  constructor
  · intro roomId count eventId held
    rcases write_row written held with held | ⟨_, waiting⟩
    · have counted := numbered.rows roomId count eventId held
      omega
    · have counted := numbered.inserting roomId eventId count waiting
      omega
  · intro roomId eventId count held
    rcases write_cases written with counted | ⟨other, _, _, _, _, rfl⟩
    · rcases counted.inserting roomId eventId count held with waiting | new
      · have counted := numbered.inserting roomId eventId count waiting
        omega
      · omega
    · by_cases same : roomId = other
      · grind
      · simp only [update_of_ne same] at held
        exact numbered.inserting roomId eventId count held

theorem numbered_count (numbered : t.Numbered) (more : t.count ≤ count) : Tables.Numbered { t with count := count } :=
  ⟨fun roomId n eventId held => Nat.le_trans (numbered.rows roomId n eventId held) more,
    fun roomId eventId n held => Nat.le_trans (numbered.inserting roomId eventId n held) more⟩

theorem le_lastTimelineCount (numbered : t.Numbered) (held : t.pduidPdu roomId count = some eventId) :
    count ≤ t.lastTimelineCount roomId ∧ ∃ newest, t.pduidPdu roomId (t.lastTimelineCount roomId) = some newest := by
  have mem : (count, eventId) ∈ Sync.ascending (t.pduidPdu roomId) t.count :=
    Sync.mem_ascending.mpr ⟨numbered.rows roomId count eventId held, held⟩
  unfold Tables.lastTimelineCount
  cases last : (Sync.ascending (t.pduidPdu roomId) t.count).getLast? with
  | none =>
    grind
  | some newest =>
    have inside : (newest.1, newest.2) ∈ Sync.ascending (t.pduidPdu roomId) t.count := List.mem_of_getLast? last
    refine ⟨?_, newest.2, (Sync.mem_ascending.mp inside).2⟩
    obtain ⟨before, shape⟩ := List.getLast?_eq_some_iff.mp last
    have ordered := Sync.pairwise_ascending (t.pduidPdu roomId) t.count
    rw [shape] at mem ordered
    rcases List.mem_append.mp mem with earlier | same
    · exact Nat.le_of_lt ((List.pairwise_append.mp ordered).2.2 _ earlier _ (List.mem_singleton_self _))
    · rw [← List.mem_singleton.mp same]
      exact Nat.le_refl _

end Writes

end Phantom.SlidingSync
