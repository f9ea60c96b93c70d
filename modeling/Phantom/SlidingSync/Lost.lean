import Phantom.SlidingSync.Cursor

namespace Phantom.SlidingSync

open Phantom.Lib Phantom.Matrix

namespace World

/-- The connection as the next request resumes it, with the cursors taken back to the client's position. -/
def resumed (world : World) : Connection :=
  if world.position = 0 then .default
  else
    match world.stored with
    | none => .default
    | some stored => Connection.updateRoomsPrologue (some world.position) (.load stored)

def Received (world : World) (roomId : RoomId) (count : Nat) : Prop :=
  ∃ range, (roomId, range) ∈ world.received ∧ range.Has count

variable (sha256 : List UInt8 → List UInt8)

/-- Events are stored before a position past them is sampled, the fingerprint of what is asked for a room is not
    the one of a room that nothing was sent of, and a response that is lost has no room whose cursor was behind
    the client's position. -/
def steady (world : World) : Label → Bool
  | .write (.appendRow roomId) =>
    match world.tables.inserting roomId with
    | some (_, count) => decide (world.sampled < count)
    | none => true
  | .collect roomId _ =>
    match world.phase with
    | .collecting pass window _ =>
      match window.find? (fun room => decide (room.roomId = roomId)) with
      | some room => decide (roomConfig sha256 (mergedRoomDetails pass.conn room.lists room.roomId) ≠ 0)
      | none => true
    | _ => true
  | .lose =>
    match world.phase with
    | .responded response => response.payloads.all fun payload => decide (world.position ≤ payload.2.since)
    | _ => true
  | _ => true

def SteadyStep (world : World) (label : Label) (next : World) : Prop :=
  world.steady sha256 label = true ∧ world.TimelyStep sha256 label next

end World

/-- What decides whether the cursors of a connection are safe. -/
structure View where
  rows : RoomId → Nat → Option EventId
  received : List (RoomId × PayloadRange)
  owed : RoomId → Option Nat
  sampled : Nat

variable (world : World)

def World.view : View := ⟨world.tables.pduidPdu, world.received, world.owed, world.sampled⟩

/-- The client has what the cursors have passed, none of them is past the position, and a room with a lost range is
    to be sent again from where the range started. -/
structure Safe (view : View) (room : RoomId → Room) (pos : Nat) : Prop where
  received : ∀ roomId count eventId, view.rows roomId count = some eventId → count ≤ (room roomId).roomsince →
    ∃ range, (roomId, range) ∈ view.received ∧ range.Has count
  owed : ∀ roomId since, view.owed roomId = some since → (room roomId).roomsince ≤ since ∧ (room roomId).configHash = 0
  cursors : ∀ roomId, (room roomId).roomsince ≤ pos
  sampled : pos ≤ view.sampled

def Resumable : Prop := ∃ pos, Safe world.view world.resumed.room pos

def Underway (conn : Connection) : Prop :=
  Safe world.view conn.room conn.nextBatch ∧ world.position ≤ conn.globalsince ∧ conn.globalsince ≤ conn.nextBatch

structure Gathered (view : View) (conn : Connection) (room : Collected) : Prop where
  payload : ∀ range, room.range.payload = some range → range = ⟨(conn.room room.roomId).roomsince, conn.nextBatch⟩
  stale : room.range.payload = none → view.owed room.roomId = none ∧ ∀ count eventId,
    view.rows room.roomId count = some eventId → count ≤ conn.nextBatch → count ≤ (conn.room room.roomId).roomsince

/-- The response makes the connection safe once the client has it. -/
def Answered (response : Response) (conn : Connection) : Prop :=
  (world.stored = none ∨ world.stored = some conn.toStored) ∧
    Safe { world.view with received := response.payloads ++ world.received } conn.room response.pos ∧
    ∀ roomId range, (roomId, range) ∈ response.payloads →
      (conn.room roomId).roomsince = response.pos ∧ world.position < response.pos

def Stands : Phase → Prop
  | .idle => Resumable world
  | .selecting pass _ => Resumable world ∧ Underway world pass.conn
  | .waiting pass => Resumable world ∧ Underway world pass.conn
  | .collecting pass _ results => Resumable world ∧ Underway world pass.conn ∧
      world.position < pass.conn.nextBatch ∧
      (∀ room ∈ World.completed results, ∃ result, (room.roomId, result) ∈ results) ∧
      ((World.completed results).map Collected.roomId).Nodup ∧
      ∀ room ∈ World.completed results, Gathered world.view pass.conn room
  | .responded response => ∃ conn, Answered world response conn

structure Recorded (world : World) : Prop where
  position : world.position ≤ world.sampled
  sampled : world.sampled ≤ world.tables.count
  positive : ∀ roomId count eventId, world.tables.pduidPdu roomId count = some eventId → 0 < count
  followed : ∀ move ∈ world.moves, ∀ since, move.owed = some since →
    ∃ range, move.range.payload = some range ∧ range.since ≤ since

structure LossInv (world : World) : Prop extends Recorded world where
  stands : Stands world world.phase

section Steps

variable {sha256 : List UInt8 → List UInt8} {w next : World} {conn : Connection}
variable {pass : Pass} {windowRoom : WindowRoom} {view : View} {room : RoomId → Room} {pos n : Nat}

theorem safe_default (positive : ∀ roomId count eventId, view.rows roomId count = some eventId → 0 < count) :
    Safe view Connection.default.room 0 where
  received roomId count eventId held passed :=
    absurd (Nat.lt_of_lt_of_le (positive roomId count eventId held) passed) (Nat.lt_irrefl 0)
  owed _ _ _ := ⟨Nat.zero_le _, rfl⟩
  cursors _ := Nat.le_refl _
  sampled := Nat.zero_le _

/-- New events are past every position. -/
theorem Safe.later (safe : Safe view room pos) {rows : RoomId → Nat → Option EventId}
    (kept : ∀ roomId count eventId, rows roomId count = some eventId →
      view.rows roomId count = some eventId ∨ view.sampled < count) (more : view.sampled ≤ n) :
    Safe { view with rows := rows, sampled := n } room pos where
  received roomId count eventId held passed := by
    rcases kept roomId count eventId held with held | late
    · exact safe.received roomId count eventId held passed
    · have cursor := safe.cursors roomId
      have bound := safe.sampled
      omega
  owed := safe.owed
  cursors := safe.cursors
  sampled := Nat.le_trans safe.sampled more

theorem Safe.sampling (safe : Safe view room pos) (more : view.sampled ≤ n) :
    Safe { view with sampled := n } room pos := safe.later (fun _ _ _ => Or.inl) more

theorem Safe.up_to (safe : Safe view room pos) (more : pos ≤ n) (bound : n ≤ view.sampled) : Safe view room n :=
  ⟨safe.received, safe.owed, fun roomId => Nat.le_trans (safe.cursors roomId) more, bound⟩

variable {phase : Phase}

theorem LossInv.at_phase (inv : LossInv w) (stands : Stands w phase) : LossInv { w with phase := phase } :=
  ⟨⟨inv.position, inv.sampled, inv.positive, inv.followed⟩, stands⟩

theorem LossInv.stands_at (inv : LossInv w) (current : w.phase = phase) : Stands w phase := current ▸ inv.stands

variable {t : Tables}

theorem rows_write {write : Write} (written : w.tables.write write = some t)
    (steady : w.steady sha256 (.write write) = true) (roomId : RoomId) (count : Nat) (eventId : EventId)
    (held : t.pduidPdu roomId count = some eventId) :
    w.tables.pduidPdu roomId count = some eventId ∨ w.sampled < count := by
  grind [write_row, World.steady]

theorem Stands.write (stands : Stands w phase)
    (kept : ∀ roomId count eventId, t.pduidPdu roomId count = some eventId →
    w.tables.pduidPdu roomId count = some eventId ∨ w.sampled < count) :
    Stands { w with tables := t } phase := by
  have resumable : Resumable w → Resumable { w with tables := t } := by
    rintro ⟨pos, safe⟩
    exact ⟨pos, safe.later kept (Nat.le_refl _)⟩
  have underway : ∀ {conn}, Underway w conn → Underway { w with tables := t } conn := by
    rintro conn ⟨safe, started⟩
    exact ⟨safe.later kept (Nat.le_refl _), started⟩
  cases phase with
  | idle => exact resumable stands
  | selecting pass probes | waiting pass => exact ⟨resumable stands.1, underway stands.2⟩
  | collecting pass window results =>
    obtain ⟨safe, going, ahead, listed, nodup, gathered⟩ := stands
    refine ⟨resumable safe, underway going, ahead, listed, nodup, fun room mem => ⟨(gathered room mem).payload, ?_⟩⟩
    intro without
    obtain ⟨unowed, nothing⟩ := (gathered room mem).stale without
    refine ⟨unowed, fun count eventId held covered => ?_⟩
    rcases kept room.roomId count eventId held with held | late
    · exact nothing count eventId held covered
    · exact absurd (Nat.lt_of_le_of_lt going.1.sampled late) (Nat.not_lt.mpr covered)
  | responded response =>
    obtain ⟨conn, stored, safe, sent⟩ := stands
    exact ⟨conn, stored, safe.later kept (Nat.le_refl _), sent⟩

variable {other : World}

theorem resumed_of_position (first : other.position = 0) : other.resumed = .default := by
  unfold World.resumed
  rw [if_pos first]

theorem resumed_of_stored (gone : other.stored = none) : other.resumed = .default := by
  unfold World.resumed
  rw [gone]
  split
  · rfl
  · rfl

theorem room_resumed {stored : StoredConnection} (resuming : w.position ≠ 0) (held : w.stored = some stored)
    (roomId : RoomId) : w.resumed.room roomId =
      Connection.retard w.position ((Connection.load stored).room roomId) := by
  grind [Connection.room_updateRoomsPrologue, World.resumed]

theorem Recorded.resumable (recorded : Recorded w) (gone : w.stored = none) : Resumable w := by
  rw [Resumable, resumed_of_stored gone]
  exact ⟨0, safe_default recorded.positive⟩

theorem Stands.expire (stands : Stands w phase) (recorded : Recorded { w with stored := none }) :
    Stands { w with stored := none } phase := by
  have resumable := recorded.resumable rfl
  cases phase with
  | idle => exact resumable
  | selecting pass probes | waiting pass | collecting pass window results => exact ⟨resumable, stands.2⟩
  | responded response =>
    obtain ⟨conn, _, safe, sent⟩ := stands
    exact ⟨conn, Or.inl rfl, safe, sent⟩

theorem lossInv_start (recorded : Recorded w) (resumable : Resumable w) (started : Started w next w.position conn pass)
    (safe : Safe w.view pass.conn.room pos) : LossInv next := by
  have becomes := started.becomes
  have counted := recorded.sampled
  have reached := recorded.position
  have ahead := started.ahead
  have sampled : w.view.sampled ≤ pass.conn.nextBatch := Nat.le_trans counted ahead
  obtain ⟨old, resumed⟩ := resumable
  have fresh := (safe.sampling sampled).up_to (Nat.le_trans safe.sampled sampled) (Nat.le_refl _)
  subst becomes
  refine ⟨⟨Nat.le_trans reached sampled, Nat.le_refl _, recorded.positive, recorded.followed⟩,
    ⟨old, resumed.sampling sampled⟩, fresh, ?_, ?_⟩
  · change w.position ≤ pass.conn.globalsince
    rw [started.globalsince]
    omega
  · rw [started.globalsince]
    omega

theorem lossInv_begin {req : Request} {restart : Bool} (inv : LossInv w) (idle : w.phase = .idle) :
    LossInv (w.begin req restart) := by
  rcases begin_cases w req restart with begun | same | ⟨stored, held, resuming, begun⟩
  · rw [begun]
    obtain ⟨pass, started⟩ := start_started { w with stored := none, position := 0 } req 0 .default
    have recorded : Recorded { w with stored := none, position := 0 } :=
      ⟨Nat.zero_le _, inv.sampled, inv.positive, inv.followed⟩
    have rooms : pass.conn.room = Connection.default.room := funext started.rooms
    apply lossInv_start recorded (recorded.resumable rfl) started
    rw [rooms]
    exact safe_default inv.positive
  · rw [same]
    exact inv
  · rw [begun]
    obtain ⟨pass, started⟩ := start_started w req w.position (.load stored)
    obtain ⟨pos, safe⟩ := inv.stands_at idle
    have rooms : pass.conn.room = w.resumed.room := by
      funext roomId
      rw [started.rooms, if_neg resuming, room_resumed resuming held]
    apply lossInv_start inv.toRecorded ⟨pos, safe⟩ started
    rw [rooms]
    exact safe

theorem gathered_collected (safe : Safe w.view conn.room pos)
    (fingerprint : roomConfig sha256 (mergedRoomDetails conn windowRoom.lists windowRoom.roomId) ≠ 0)
    (delivered : Delivered (w.collected sha256 conn windowRoom)) :
    Gathered w.view conn (w.collected sha256 conn windowRoom) where
  payload _ built := collectRoom_payload built
  stale without := by
    constructor
    · cases held : w.owed windowRoom.roomId with
      | none => exact held
      | some since =>
        have unsent := (safe.owed windowRoom.roomId since held).2
        rw [(collectRoom_stale without).2] at unsent
        exact absurd unsent fingerprint
    · intro count eventId held covered
      by_contra after
      obtain ⟨range, built, _⟩ := delivered count eventId held (Nat.lt_of_not_le after) covered
      rw [without] at built
      cases built

theorem lossInv_collect {roomId : RoomId} {succeeds : Bool} {window : List WindowRoom}
    {results : List (RoomId × Option Collected)} (inv : LossInv w) (phase : w.phase = .collecting pass window results)
    (found : window.find? (fun room => decide (room.roomId = roomId)) = some windowRoom)
    (uncollected : ∀ result, (roomId, result) ∉ results) (steady : w.steady sha256 (.collect roomId succeeds) = true)
    (delivered : ∀ room ∈ World.completed
      ((roomId, if succeeds then some (w.collected sha256 pass.conn windowRoom) else none) :: results), Delivered room) :
    LossInv { w with
      phase := .collecting pass window
        ((roomId, if succeeds then some (w.collected sha256 pass.conn windowRoom) else none) :: results) } := by
  have chosen := List.find?_some found
  obtain rfl : windowRoom.roomId = roomId := of_decide_eq_true chosen
  obtain ⟨resumable, underway, ahead, listed, nodup, gathered⟩ := inv.stands_at phase
  have still : ∀ {result}, ∀ room ∈ World.completed results, ∃ found,
    (room.roomId, found) ∈ (windowRoom.roomId, result) :: results :=
    fun room mem => (listed room mem).imp fun _ => List.mem_cons_of_mem _
  cases succeeds with
  | false => exact inv.at_phase ⟨resumable, underway, ahead, still, nodup, gathered⟩
  | true =>
    have fingerprint : roomConfig sha256 (mergedRoomDetails pass.conn windowRoom.lists windowRoom.roomId) ≠ 0 := by
      simpa [World.steady, phase, found] using steady
    have made := gathered_collected underway.1 fingerprint (delivered _ List.mem_cons_self)
    refine inv.at_phase ⟨resumable, underway, ahead, List.forall_mem_cons.mpr ⟨⟨_, List.mem_cons_self⟩, still⟩,
      List.nodup_cons.mpr ⟨fun again => ?_, nodup⟩, List.forall_mem_cons.mpr ⟨made, gathered⟩⟩
    obtain ⟨room, mem, same⟩ := List.mem_map.mp again
    obtain ⟨result, inside⟩ := listed room mem
    rw [same] at inside
    exact uncollected result inside

end Steps

section Finishing

variable {view : View} {conn : Connection} {complete : List Collected} {roomId : RoomId}

theorem mem_intoPayloads {range : PayloadRange} : (roomId, range) ∈ World.intoPayloads complete ↔
      ∃ room ∈ complete, room.roomId = roomId ∧ room.range.payload = some range := by
  grind [Option.map_eq_some_iff, World.intoPayloads]

theorem room_finish (nodup : (complete.map Collected.roomId).Nodup) (roomId : RoomId) :
    (∃ room ∈ complete, room.roomId = roomId ∧ (conn.updateRoomsEpilogue (World.roomUpdates complete)).room roomId =
        ⟨conn.nextBatch, room.range.config.getD (conn.room roomId).configHash⟩) ∨
    ((∀ room ∈ complete, room.roomId ≠ roomId) ∧
      (conn.updateRoomsEpilogue (World.roomUpdates complete)).room roomId = conn.room roomId) := by
  have unique : ((World.roomUpdates complete).map Prod.fst).Nodup := by
    unfold World.roomUpdates
    rw [List.map_map]
    exact nodup
  by_cases inside : ∃ room ∈ complete, room.roomId = roomId
  · obtain ⟨room, mem, named⟩ := inside
    refine Or.inl ⟨room, mem, named, ?_⟩
    apply Connection.room_updateRoomsEpilogue unique
    exact List.mem_map.mpr ⟨room, mem, by rw [named]⟩
  · have outside : ∀ room ∈ complete, room.roomId ≠ roomId := fun room mem named => inside ⟨room, mem, named⟩
    refine Or.inr ⟨outside, Connection.room_updateRoomsEpilogue_other ?_⟩
    intro cfg listed
    obtain ⟨room, mem, same⟩ := List.mem_map.mp listed
    exact outside room mem (congrArg Prod.fst same)

theorem safe_finish (safe : Safe view conn.room conn.nextBatch) (nodup : (complete.map Collected.roomId).Nodup)
    (gathered : ∀ room ∈ complete, Gathered view conn room) : Safe { view with
        received := World.intoPayloads complete ++ view.received
        owed := fun roomId => if (World.intoPayloads complete).any (fun payload => decide (payload.1 = roomId)) then none
          else view.owed roomId }
      (conn.updateRoomsEpilogue (World.roomUpdates complete)).room conn.nextBatch := by
  constructor
  · intro roomId count eventId held passed
    by_cases old : count ≤ (conn.room roomId).roomsince
    · obtain ⟨range, had, has⟩ := safe.received roomId count eventId held old
      exact ⟨range, List.mem_append_right _ had, has⟩
    · rcases @room_finish conn complete nodup roomId with ⟨room, mem, rfl, cursor⟩ | ⟨_, cursor⟩
      · rw [cursor] at passed
        cases built : room.range.payload with
        | none => exact absurd (((gathered room mem).stale built).2 count eventId held passed) old
        | some range =>
          refine ⟨range, List.mem_append_left _ (mem_intoPayloads.mpr ⟨room, mem, rfl, built⟩), ?_⟩
          rw [(gathered room mem).payload range built]
          exact ⟨Nat.lt_of_not_le old, passed⟩
      · rw [cursor] at passed
        exact absurd passed old
  · intro roomId since owed
    dsimp only at owed
    split at owed
    · cases owed
    · rcases @room_finish conn complete nodup roomId with ⟨room, mem, rfl, _⟩ | ⟨_, cursor⟩
      · cases built : room.range.payload with
        | none =>
          grind [Gathered.stale]
        | some range =>
          have sent := mem_intoPayloads.mpr ⟨room, mem, rfl, built⟩
          grind
      · rw [cursor]
        exact safe.owed roomId since owed
  · intro roomId
    rcases @room_finish conn complete nodup roomId with ⟨_, _, _, cursor⟩ | ⟨_, cursor⟩
    · rw [cursor]
    · rw [cursor]
      exact safe.cursors roomId
  · exact safe.sampled

theorem followed_finish {pos : Nat} (safe : Safe view conn.room pos) {room : Collected}
    (gathered : Gathered view conn room) {since : Nat} (owed : view.owed room.roomId = some since) :
    ∃ range, room.range.payload = some range ∧ range.since ≤ since := by
  cases built : room.range.payload with
  | none =>
    rw [(gathered.stale built).1] at owed
    cases owed
  | some range =>
    refine ⟨range, rfl, ?_⟩
    rw [gathered.payload range built]
    exact (safe.owed room.roomId since owed).1

end Finishing

section Runs

variable {sha256 : List UInt8 → List UInt8} {world w next : World} {label : Label}
variable {pass : Pass} {response : Response} {conn : Connection}

theorem lossInv_finish {window : List WindowRoom} {results : List (RoomId × Option Collected)}
    (inv : LossInv w) (phase : w.phase = .collecting pass window results) (otherUpdates : Bool) :
    LossInv (w.finish pass (World.completed results) otherUpdates) := by
  obtain ⟨⟨pos, resumed⟩, ⟨safe, started, reached⟩, ahead, _, nodup, gathered⟩ := inv.stands_at phase
  have followed : ∀ move ∈ (World.completed results).map (fun room => (⟨room, w.owed room.roomId⟩ : Move)) ++
      w.moves, ∀ since, move.owed = some since → ∃ range, move.range.payload = some range ∧ range.since ≤ since := by
    intro move mem since owed
    rcases List.mem_append.mp mem with mem | mem
    · obtain ⟨room, listed, rfl⟩ := List.mem_map.mp mem
      exact followed_finish safe (gathered room listed) owed
    · exact inv.followed move mem since owed
  have finished := safe_finish safe nodup gathered
  unfold World.finish
  dsimp only
  split
  · next quiet =>
    have unsent : World.intoPayloads (World.completed results) = [] :=
      List.isEmpty_iff.mp (Bool.and_eq_true_iff.mp quiet).1
    simp only [unsent, List.any_nil, Bool.false_eq_true, if_false] at finished ⊢
    refine ⟨⟨inv.position, inv.sampled, inv.positive, followed⟩, ⟨pos, resumed⟩, ?_, ?_, ?_⟩
    · rw [Connection.nextBatch_updateRoomsEpilogue]
      exact finished
    · rw [Connection.globalsince_updateRoomsEpilogue]
      exact started
    · rw [Connection.globalsince_updateRoomsEpilogue, Connection.nextBatch_updateRoomsEpilogue]
      exact reached
  · refine ⟨⟨inv.position, inv.sampled, inv.positive, followed⟩, _, Or.inr rfl, ?_, ?_⟩
    · rw [Connection.nextBatch_updateRoomsEpilogue]
      exact finished
    · intro roomId range sent
      obtain ⟨room, mem, named, _⟩ := mem_intoPayloads.mp sent
      rw [Connection.nextBatch_updateRoomsEpilogue]
      rcases @room_finish pass.conn _ nodup roomId with ⟨_, _, _, cursor⟩ | ⟨outside, _⟩
      · rw [cursor]
        exact ⟨rfl, ahead⟩
      · exact absurd named (outside room mem)

theorem resumable_of_stored {conn : Connection} (recorded : Recorded w)
    (stored : w.stored = none ∨ w.stored = some conn.toStored)
    (safe : Safe w.view (fun roomId => Connection.retard w.position (conn.room roomId)) w.position) : Resumable w := by
  by_cases first : w.position = 0
  · rw [Resumable, resumed_of_position first]
    exact ⟨0, safe_default recorded.positive⟩
  · rcases stored with gone | held
    · exact recorded.resumable gone
    · have rooms : w.resumed.room = fun roomId => Connection.retard w.position (conn.room roomId) := by
        funext roomId
        rw [room_resumed first held, Connection.room, Connection.room_load_toStored, Connection.room]
      exact ⟨w.position, rooms ▸ safe⟩

theorem lossInv_receive (inv : LossInv w) (phase : w.phase = .responded response) : LossInv { w with
      phase := .idle, position := response.pos, received := response.payloads ++ w.received } := by
  obtain ⟨conn, stored, safe, _⟩ := inv.stands_at phase
  have recorded : Recorded { w with
      phase := .idle, position := response.pos, received := response.payloads ++ w.received } :=
    ⟨safe.sampled, inv.sampled, inv.positive, inv.followed⟩
  have rooms : (fun roomId => Connection.retard response.pos (conn.room roomId)) = conn.room :=
    funext fun roomId => if_neg (Nat.not_lt.mpr (safe.cursors roomId))
  exact ⟨recorded, resumable_of_stored recorded stored (rooms.symm ▸ safe)⟩

theorem lossInv_lost (inv : LossInv w) (phase : w.phase = .responded response)
    (steady : w.steady sha256 .lose = true) : LossInv (w.lost response) := by
  obtain ⟨conn, stored, safe, sent⟩ := inv.stands_at phase
  simp only [World.steady, phase] at steady
  have starts : ∀ roomId range, (roomId, range) ∈ response.payloads → w.position ≤ range.since :=
    fun roomId range mem => of_decide_eq_true (List.all_eq_true.mp steady (roomId, range) mem)
  have recorded : Recorded (w.lost response) := ⟨inv.position, inv.sampled, inv.positive, inv.followed⟩
  refine ⟨recorded, resumable_of_stored recorded stored ⟨?_, ?_, ?_, inv.position⟩⟩
  · intro roomId count eventId held passed
    rw [Connection.retard_roomsince] at passed
    change count ≤ min _ w.position at passed
    obtain ⟨range, mem, has⟩ := safe.received roomId count eventId held (by omega)
    rcases List.mem_append.mp mem with lost | had
    · have start := starts roomId range lost
      have after := has.1
      omega
    · exact ⟨range, had, has⟩
  · intro roomId since owes
    change (Connection.retard w.position (conn.room roomId)).roomsince ≤ since ∧
      (Connection.retard w.position (conn.room roomId)).configHash = 0
    simp only [World.view, World.lost] at owes
    split at owes
    · next payload found =>
      have mem := List.mem_of_find?_eq_some found
      have chosen := List.find?_some found
      grind [Connection.retard]
    · obtain ⟨cursor, unsent⟩ := safe.owed roomId since owes
      grind [Connection.retard]
  · intro roomId
    rw [Connection.retard_roomsince]
    exact Nat.min_le_right _ _

theorem lossInv_select {probes : RoomId → Probes} {candidates passing : List Candidate}
    (inv : LossInv w) (phase : w.phase = .selecting pass probes) :
    LossInv (w.select pass probes candidates passing) := by
  obtain ⟨resumable, safe, started, reached⟩ := inv.stands_at phase
  have rooms : (trackRooms pass.conn (matchedRooms pass.conn probes candidates)).room = pass.conn.room :=
    funext (room_trackRooms pass.conn _)
  have tracked : Underway w (trackRooms pass.conn (matchedRooms pass.conn probes candidates)) :=
    ⟨rooms.symm ▸ safe, started, reached⟩
  unfold World.select
  dsimp only
  split
  · next behind =>
    exact inv.at_phase ⟨resumable, tracked, Nat.lt_of_le_of_lt started behind,
      fun _ mem => absurd mem List.not_mem_nil, List.nodup_nil, fun _ mem => absurd mem List.not_mem_nil⟩
  · exact inv.at_phase ⟨resumable, tracked⟩

theorem lossInv_wake (inv : LossInv w) (phase : w.phase = .waiting pass) : LossInv { w with
      phase := .selecting { pass with conn := { pass.conn with
        globalsince := pass.conn.nextBatch, nextBatch := w.tables.count } } (fun _ => .unread)
      sampled := w.tables.count } := by
  obtain ⟨⟨pos, resumed⟩, safe, started, reached⟩ := inv.stands_at phase
  have ahead : pass.conn.nextBatch ≤ w.tables.count := Nat.le_trans safe.sampled inv.sampled
  exact ⟨⟨Nat.le_trans inv.position inv.sampled, Nat.le_refl _, inv.positive, inv.followed⟩,
    ⟨pos, resumed.sampling inv.sampled⟩, (safe.sampling inv.sampled).up_to ahead (Nat.le_refl _),
    Nat.le_trans started reached, ahead⟩

theorem lossInv_step (inv : LossInv world) (step : world.SteadyStep sha256 label next) (timely : TimelyInv next) :
    LossInv next := by
  obtain ⟨steady, _, step⟩ := step
  cases step_moved step with
  | @write write tables written =>
    have rows := rows_write written steady
    refine ⟨⟨inv.position, Nat.le_trans inv.sampled (write_count written), ?_, inv.followed⟩, inv.stands.write rows⟩
    intro roomId count eventId held
    rcases rows roomId count eventId held with held | late
    · exact inv.positive roomId count eventId held
    · omega
  | expire =>
    have recorded : Recorded { world with stored := none } := ⟨inv.position, inv.sampled, inv.positive, inv.followed⟩
    exact ⟨recorded, inv.stands.expire recorded⟩
  | request phase => exact lossInv_begin inv phase
  | probeTimeline phase | probeOther phase kept =>
    have stands := inv.stands_at phase
    exact inv.at_phase stands
  | select phase ready => exact lossInv_select inv phase
  | collect phase found uncollected => exact lossInv_collect inv phase found uncollected steady timely.probed.2.2
  | finish phase => exact lossInv_finish inv phase _
  | wake phase => exact lossInv_wake inv phase
  | @giveUp pass phase =>
    obtain ⟨_, safe, _⟩ := inv.stands_at phase
    exact ⟨⟨inv.position, inv.sampled, inv.positive, inv.followed⟩, pass.conn, Or.inr rfl, safe,
      fun _ _ sent => absurd sent List.not_mem_nil⟩
  | fail busy unanswered =>
    have resumable : Resumable world := by
      cases phase : world.phase with
      | idle => exact absurd phase busy
      | selecting pass probes | waiting pass | collecting pass window results => exact (inv.stands_at phase).1
      | responded response => exact absurd phase (unanswered response)
    exact inv.at_phase resumable
  | receive phase => exact lossInv_receive inv phase
  | lose phase => exact lossInv_lost inv phase steady

theorem lossInv_init : LossInv .init := ⟨⟨Nat.le_refl _, Nat.le_refl _, nofun, nofun⟩, 0, safe_default nofun⟩

/-- In a run of steady steps with responses lost at will, the client received every event or it is above the cursor
    that the next request resumes, and a lost range is followed by a payload that starts no later. -/
theorem lost_responses_survive {labels : List Label} (run : Run (World.SteadyStep sha256) .init labels world) :
    (world.phase = .idle → ∀ roomId count eventId, world.tables.pduidPdu roomId count = some eventId →
      world.Received roomId count ∨ (world.resumed.room roomId).roomsince < count) ∧
    ∀ move ∈ world.moves, ∀ since, move.owed = some since →
      ∃ range, move.range.payload = some range ∧ range.since ≤ since := by
  have inv := run.invariant (fun world => TimelyInv world ∧ LossInv world) (fun _ _ _ inv step =>
      have timely := timelyInv_step inv.1 step.2
      ⟨timely, lossInv_step inv.2 step timely⟩) ⟨timelyInv_init, lossInv_init⟩
  refine ⟨?_, inv.2.followed⟩
  intro idle roomId count eventId held
  obtain ⟨pos, safe⟩ := inv.2.stands_at idle
  rcases Nat.lt_or_ge (world.resumed.room roomId).roomsince count with above | passed
  · exact Or.inr above
  · exact Or.inl (safe.received roomId count eventId held passed)

end Runs

namespace Sample

def noLists : Request := { request with lists := BTreeMap.empty }

/-- The client asks for no room, then for all of them, and does not get the response. -/
def lostWidening : List Label :=
  append "$first" ++ [.request noLists false, .select [] [], .finish false, .giveUp, .receive] ++
    [.request request false] ++ probe ++ collect ++ [.lose] ++
    [.request request false] ++ probe ++ collect ++ [.receive]

def idle (world : World) : Bool :=
  match world.phase with
  | .idle => true
  | _ => false

theorem idle_phase {w : World} (holds : idle w = true) : w.phase = .idle := by
  grind [idle]

/-- The cursor is taken back to the position of the client, which is past where the lost range started. -/
theorem lost_range_skipped : ∃ world, Run (World.Step digest) .init lostWidening world ∧ world.phase = .idle ∧
    world.tables.pduidPdu room 1 = some ⟨"$first"⟩ ∧ ¬ world.Received room 1 ∧
    (world.resumed.room room).roomsince = 2 ∧
    ∃ move ∈ world.moves, move.owed = some 0 ∧ move.range.payload = some ⟨1, 2⟩ := by
  apply Run.exists_of_foldlM (fun world => idle world ∧ world.tables.pduidPdu room 1 = some ⟨"$first"⟩ ∧
    (∀ payload ∈ world.received, ¬ payload.2.Has 1) ∧ (world.resumed.room room).roomsince = 2 ∧
    ∃ move ∈ world.moves, move.owed = some 0 ∧ move.range.payload = some ⟨1, 2⟩) (by decide +kernel)
    (fun _ _ _ step => step)
  rintro world run ⟨phase, held, without, cursor, moved⟩
  refine ⟨idle_phase phase, held, ?_, cursor, moved⟩
  rintro ⟨range, member, has⟩
  exact without (room, range) member has

def lostEvent : List Label :=
  firstSync ++ append "$second" ++ [.request request false] ++ probe ++ collect ++ [.lose] ++
    [.request request false] ++ probe ++ collect ++ [.receive]

theorem lost_responses_survive_event : ∃ world, Run (World.SteadyStep digest) .init lostEvent world ∧
    world.phase = .idle ∧ world.tables.pduidPdu room 2 = some ⟨"$second"⟩ ∧
    (∃ move ∈ world.moves, move.owed = some 1) ∧
    (world.phase = .idle → ∀ roomId count eventId, world.tables.pduidPdu roomId count = some eventId →
      world.Received roomId count ∨ (world.resumed.room roomId).roomsince < count) ∧
    ∀ move ∈ world.moves, ∀ since, move.owed = some since →
      ∃ range, move.range.payload = some range ∧ range.since ≤ since := by
  have sound : ∀ world label next, Run.allowing (World.steady digest) (Run.allowing World.timely (World.step digest))
      world label = some next → world.SteadyStep digest label next := by
    intro world label next moved
    rwa [Run.allowing_eq_some, Run.allowing_eq_some] at moved
  apply Run.exists_of_foldlM (fun world => idle world ∧ world.tables.pduidPdu room 2 = some ⟨"$second"⟩ ∧
    ∃ move ∈ world.moves, move.owed = some 1) (by decide +kernel) sound
  rintro world run ⟨phase, held, lost⟩
  exact ⟨idle_phase phase, held, lost, lost_responses_survive run⟩

end Sample

end Phantom.SlidingSync
