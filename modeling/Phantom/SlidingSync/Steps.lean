import Phantom.SlidingSync.Server

namespace Phantom.SlidingSync

open Phantom.Lib Phantom.Matrix

inductive Moved (sha256 : List UInt8 → List UInt8) (world : World) : Label → World → Prop where
  | write {write : Write} {tables : Tables} (written : world.tables.write write = some tables) :
      Moved sha256 world (.write write) { world with tables := tables }
  | expire : Moved sha256 world .expire { world with stored := none }
  | request {request : Request} {restart : Bool} (phase : world.phase = .idle) :
      Moved sha256 world (.request request restart) (world.begin request restart)
  | probeTimeline {roomId : RoomId} {readable : Bool} {pass : Pass} {probes : RoomId → Probes}
      (phase : world.phase = .selecting pass probes) :
      Moved sha256 world (.probeTimeline roomId readable) (world.setProbes pass probes roomId fun probes =>
        { probes with timeline := some (activityProbe
            (if readable then some (world.tables.lastTimelineCount roomId) else none)) })
  | probeOther {label : Label} {roomId : RoomId} {pass : Pass} {probes : RoomId → Probes} {change : Probes → Probes}
      (phase : world.phase = .selecting pass probes) (kept : ∀ probes, (change probes).timeline = probes.timeline) :
      Moved sha256 world label (world.setProbes pass probes roomId change)
  | select {candidates passing : List Candidate} {pass : Pass} {probes : RoomId → Probes}
      (phase : world.phase = .selecting pass probes)
      (ready : ∀ candidate ∈ candidates ++ passing, (probes candidate.roomId).ready candidate.membership = true) :
      Moved sha256 world (.select candidates passing) (world.select pass probes candidates passing)
  | collect {roomId : RoomId} {succeeds : Bool} {pass : Pass} {window : List WindowRoom}
      {results : List (RoomId × Option Collected)} {windowRoom : WindowRoom}
      (phase : world.phase = .collecting pass window results)
      (found : window.find? (fun room => decide (room.roomId = roomId)) = some windowRoom)
      (uncollected : ∀ result, (roomId, result) ∉ results) :
      Moved sha256 world (.collect roomId succeeds) { world with
        phase := .collecting pass window
          ((roomId, if succeeds then some (world.collected sha256 pass.conn windowRoom) else none) :: results) }
  | finish {otherUpdates : Bool} {pass : Pass} {window : List WindowRoom}
      {results : List (RoomId × Option Collected)} (phase : world.phase = .collecting pass window results) :
      Moved sha256 world (.finish otherUpdates) (world.finish pass (World.completed results) otherUpdates)
  | wake {pass : Pass} (phase : world.phase = .waiting pass) :
      Moved sha256 world .wake { world with
        phase := .selecting { pass with conn := { pass.conn with
          globalsince := pass.conn.nextBatch, nextBatch := world.tables.count } } (fun _ => .unread)
        sampled := world.tables.count }
  | giveUp {pass : Pass} (phase : world.phase = .waiting pass) :
      Moved sha256 world .giveUp (world.respond pass.conn [])
  | fail (busy : world.phase ≠ .idle) (open_ : ∀ response, world.phase ≠ .responded response) :
      Moved sha256 world .fail { world with phase := .idle }
  | receive {response : Response} (phase : world.phase = .responded response) :
      Moved sha256 world .receive { world with
        phase := .idle, position := response.pos, received := response.payloads ++ world.received }
  | lose {response : Response} (phase : world.phase = .responded response) :
      Moved sha256 world .lose (world.lost response)

theorem step_moved {sha256 : List UInt8 → List UInt8} {world next : World} {label : Label}
    (step : world.Step sha256 label next) : Moved sha256 world label next := by
  unfold World.Step World.step at step
  cases label with
  | write write =>
    obtain ⟨tables, written, rfl⟩ := Option.map_eq_some_iff.mp step
    exact .write written
  | expire =>
    cases step
    exact .expire
  | request request restart =>
    simp only at step
    split at step
    · next phase =>
      cases step
      exact .request phase
    · cases step
  | probeTimeline roomId readable =>
    simp only at step
    split at step
    · next phase =>
      cases step
      exact .probeTimeline phase
    · cases step
  | probeNotification roomId | probeMembership roomId =>
    simp only at step
    split at step
    · next phase =>
      cases step
      exact .probeOther phase fun _ => rfl
    · cases step
  | select candidates passing =>
    simp only at step
    split at step
    · next phase =>
      split at step
      · next ready =>
        cases step
        exact .select phase (List.all_eq_true.mp ready)
      · cases step
    · cases step
  | collect roomId succeeds =>
    simp only at step
    split at step
    · next phase =>
      split at step
      · cases step
      · next windowRoom found =>
        split at step
        · cases step
        · next uncollected =>
          cases step
          apply Moved.collect phase found
          grind
    · cases step
  | finish otherUpdates =>
    simp only at step
    split at step
    · next phase =>
      split at step
      · cases step
        exact .finish phase
      · cases step
    · cases step
  | wake =>
    simp only at step
    split at step
    · next phase =>
      split at step
      · cases step
        exact .wake phase
      · cases step
    · cases step
  | giveUp =>
    simp only at step
    split at step
    · next phase =>
      cases step
      exact .giveUp phase
    · cases step
  | fail =>
    simp only at step
    split at step <;> cases step
    all_goals
      rename_i phase
      exact .fail (by rw [phase]; exact nofun) (by rw [phase]; exact nofun)
  | receive =>
    simp only at step
    split at step
    · next phase =>
      cases step
      exact .receive phase
    · cases step
  | lose =>
    simp only at step
    split at step
    · next phase =>
      cases step
      exact .lose phase
    · cases step

variable (w : World)

theorem begin_cases (req : Request) (restart : Bool) :
    w.begin req restart = World.start { w with stored := none, position := 0 } req 0 .default ∨
      w.begin req restart = w ∨ ∃ stored, w.stored = some stored ∧ w.position ≠ 0 ∧
        w.begin req restart = w.start req w.position (.load stored) := by
  grind [World.begin]

structure Started (world next : World) (since : Nat) (conn : Connection) (pass : Pass) : Prop where
  becomes : next = { world with
    tables := { world.tables with count := pass.conn.nextBatch }
    phase := .selecting pass fun _ => .unread
    sampled := pass.conn.nextBatch }
  ahead : world.tables.count ≤ pass.conn.nextBatch
  globalsince : pass.conn.globalsince = min since world.tables.count
  rooms : ∀ roomId, pass.conn.room roomId =
    if since = 0 then conn.room roomId else Connection.retard since (conn.room roomId)

theorem start_started (req : Request) (since : Nat) (conn : Connection) :
    ∃ pass, Started w (w.start req since conn) since conn pass := by
  have kept := Connection.progress_updateCache req
    { conn with nextBatch := w.tables.count, globalsince := min since w.tables.count }
  unfold World.start
  dsimp only at kept ⊢
  generalize Connection.updateCache req
    { conn with nextBatch := w.tables.count, globalsince := min since w.tables.count } = updated at kept
  obtain ⟨updated, changed⟩ := updated
  simp only [Connection.progress, Prod.mk.injEq] at kept
  obtain ⟨globalsince, nextBatch, rooms⟩ := kept
  have room : ∀ {n : Nat} (roomId : RoomId), ({ updated with nextBatch := n } : Connection).room roomId =
      conn.room roomId := by
    grind [Connection.room]
  generalize number_eq : (if configChangeNeedsPosition (changed || updated.owesOwnProfile)
    (updated.globalsince == updated.nextBatch) since = true then w.tables.count + 1
    else w.tables.count) = n
  have more : w.tables.count ≤ n := by
    grind
  refine ⟨⟨req, since, Connection.updateRoomsPrologue (if since = 0 then none else some since)
    { updated with nextBatch := n }⟩, ?_⟩
  by_cases first : since = 0
  · simp only [first, if_true] at globalsince ⊢
    exact ⟨rfl, more, globalsince, room⟩
  · simp only [first, if_false]
    refine ⟨rfl, more, globalsince, ?_⟩
    intro roomId
    rw [Connection.room_updateRoomsPrologue, room, if_neg first]

end Phantom.SlidingSync
