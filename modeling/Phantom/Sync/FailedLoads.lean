import Phantom.Sync.JoinedRooms

namespace Phantom.Sync.Rooms

open Phantom.Lib Phantom.Matrix

namespace World

def position (world : World) : Nat :=
  match world.phase with
  | .idle => world.token
  | .looping _ since => since
  | .building _ since _ _ _ => since
  | .waiting _ nextBatch => nextBatch

def resting (world : World) : Bool :=
  match world.phase with
  | .idle | .waiting _ _ => true
  | _ => false

end World

def JoinedRoom.Shows (room : JoinedRoom) (count : Nat) (eventId : EventId) : Prop :=
  (count, eventId) ∈ room.timeline.events ∨ eventId ∈ room.stateEvents

def StillDelivered (isState : EventId → Bool) (world : World) (position : Nat) (roomId : RoomId) (count : Nat)
    (eventId : EventId) : Prop :=
  ∃ labels later added, Run (World.Step isState) world labels later ∧ later.responses = added ++ world.responses ∧
    ∃ response ∈ added, position ≤ response.since ∧ ∃ room, (roomId, room) ∈ response.rooms ∧ room.Shows count eventId

def Fits (isState : EventId → Bool) (since : Nat) (room : JoinedRoom) : Prop :=
  (∀ pdu ∈ room.timeline.events, since < pdu.1) ∧ ∀ eventId ∈ room.stateEvents, isState eventId = true

structure Inv (isState : EventId → Bool) (world : World) : Prop where
  numbered : world.tables.Numbered
  position : world.position ≤ world.tables.count
  token : world.token ≤ world.tables.count
  failed : ∀ load ∈ world.failed, load.nextBatch = world.position
  results : ∀ request since nextBatch rooms results, world.phase = .building request since nextBatch rooms results →
    nextBatch ≤ world.tables.count ∧ ∀ roomId room, (roomId, .ok room) ∈ results → Fits isState since room
  responses : ∀ response ∈ world.responses, ∀ roomId room, (roomId, room) ∈ response.rooms →
    Fits isState response.since room

section Loads

variable {isState : EventId → Bool} {rows : Nat → Option EventId} {reads : Reads} {since nextBatch limit count : Nat}
variable {eventId : EventId}
variable {pdus taken : List (Nat × EventId)}

theorem takeTimeline_after (before : ∀ pdu ∈ taken, since < pdu.1) :
    ∀ pdu ∈ (takeTimeline since limit pdus taken).1, since < pdu.1 := by
  induction pdus generalizing taken with
  | nil => exact before
  | cons next pdus ih =>
    grind [takeTimeline]

theorem takeTimeline_whole (fits : taken.length + pdus.length ≤ limit) :
    (takeTimeline since limit pdus taken).2 = false := by
  induction pdus generalizing taken with
  | nil => rfl
  | cons next pdus ih =>
    grind [takeTimeline]

theorem fits_loadJoinedRoom {room : JoinedRoom}
    (loaded : loadJoinedRoom isState rows reads since nextBatch limit = .ok room) : Fits isState since room := by
  have timeline_fits : ∀ timeline, loadTimeline rows reads since nextBatch limit = .ok timeline →
      ∀ pdu ∈ timeline.events, since < pdu.1 := by
    intro timeline read
    have none_taken : ∀ pdu ∈ ([] : List (Nat × EventId)), since < pdu.1 := by
      intro pdu mem
      cases mem
    unfold loadTimeline at read
    split at read
    · cases read
    split at read
    · cases read
      exact takeTimeline_after none_taken
    · split at read
      · cases read
        exact takeTimeline_after none_taken
      · cases read
  unfold loadJoinedRoom at loaded
  cases read : loadTimeline rows reads since nextBatch limit with
  | error error =>
    rw [read] at loaded
    cases loaded
  | ok timeline =>
    simp only [read, Bind.bind, Except.bind] at loaded
    split at loaded
    · cases loaded
      refine ⟨timeline_fits timeline read, ?_⟩
      grind
    · cases loaded

def everything : Reads := ⟨true, fun _ => true, true, true, []⟩

theorem loadJoinedRoom_everything (held : rows count = some eventId) (after : since < count)
    (covered : count ≤ nextBatch) :
    ∃ room, loadJoinedRoom isState rows everything since nextBatch (ascending rows nextBatch).length = .ok room ∧
      room.Shows count eventId := by
  have whole : (Sync.loadTimeline rows since nextBatch (ascending rows nextBatch).length).limited = false := by
    apply takeTimeline_whole
    simp
  refine ⟨⟨Sync.loadTimeline rows since nextBatch (ascending rows nextBatch).length, []⟩, ?_,
    Or.inl (loadTimeline_complete held after covered whole)⟩
  unfold loadJoinedRoom loadTimeline everything
  cases (ascending rows nextBatch).getLast? with
  | none | some newest => rfl

end Loads

section Steps

variable {isState : EventId → Bool} {world w next : World} {label : Label}
variable {results : List (RoomId × Except LoadError JoinedRoom)} {roomId : RoomId}

theorem mem_loadedRooms {room : JoinedRoom} : (roomId, room) ∈ loadedRooms results ↔ (roomId, .ok room) ∈ results := by
  unfold loadedRooms
  rw [List.mem_filterMap]
  constructor
  · rintro ⟨⟨other, result⟩, mem, made⟩
    cases result with
    | error error => cases made
    | ok loaded =>
      cases made
      exact mem
  · intro mem
    exact ⟨_, mem, rfl⟩

theorem failedLoads_nextBatch {since nextBatch : Nat}
    {load : FailedLoad} (mem : load ∈ failedLoads since nextBatch results) : load.nextBatch = nextBatch := by
  obtain ⟨result, _, made⟩ := List.mem_filterMap.mp mem
  split at made
  · cases made
  · cases made
    rfl

theorem fits_responses {response : Response} {responses : List Response}
    (fits : ∀ roomId room, (roomId, room) ∈ response.rooms → Fits isState response.since room)
    (before : ∀ other ∈ responses, ∀ roomId room, (roomId, room) ∈ other.rooms → Fits isState other.since room) :
    ∀ other ∈ response :: responses, ∀ roomId room, (roomId, room) ∈ other.rooms → Fits isState other.since room := by
  grind

theorem inv_finish {req : Request} {since nextBatch : Nat} {rooms : List RoomId} (inv : Inv isState w)
    (phase : w.phase = .building req since nextBatch rooms results) (otherUpdates : Bool) :
    Inv isState (w.finish req since nextBatch results otherUpdates) := by
  obtain ⟨bound, fits⟩ := inv.results req since nextBatch rooms results phase
  have shown : ∀ roomId room, (roomId, room) ∈ (loadedRooms results).filter (fun room => !room.2.isEmpty) →
      Fits isState since room :=
    fun roomId room mem => fits roomId room (mem_loadedRooms.mp (List.mem_filter.mp mem).1)
  unfold World.finish
  dsimp only
  split
  · exact ⟨inv.numbered, bound, bound, fun load mem => failedLoads_nextBatch mem, nofun,
      fits_responses shown inv.responses⟩
  · exact ⟨inv.numbered, bound, inv.token, fun load mem => failedLoads_nextBatch mem, nofun, inv.responses⟩

theorem inv_step (inv : Inv isState world) (step : world.Step isState label next) : Inv isState next := by
  have position := inv.position
  have failed := inv.failed
  unfold World.position at position failed
  unfold World.Step World.step at step
  cases label with
  | write write =>
    obtain ⟨tables, written, rfl⟩ := Option.map_eq_some_iff.mp step
    have more := SlidingSync.write_count written
    refine ⟨SlidingSync.numbered_write inv.numbered written, Nat.le_trans inv.position more,
      Nat.le_trans inv.token more, inv.failed, ?_, inv.responses⟩
    intro request since nextBatch rooms results phase
    obtain ⟨bound, fits⟩ := inv.results request since nextBatch rooms results phase
    exact ⟨Nat.le_trans bound more, fits⟩
  | request request =>
    simp only at step
    split at step
    · next phase =>
      cases step
      rw [phase] at position failed
      exact ⟨inv.numbered, position, inv.token, failed, nofun, inv.responses⟩
    · cases step
  | sample rooms =>
    simp only at step
    split at step
    · next since phase =>
      rw [phase] at position failed
      split at step
      · cases step
        refine ⟨inv.numbered, Nat.min_le_right _ _, inv.token, ?_, ?_, inv.responses⟩
        · intro load member
          exact (failed load member).trans (Nat.min_eq_left position).symm
        · grind
      · next reached =>
        cases step
        refine ⟨inv.numbered, Nat.le_refl _, inv.token, ?_, nofun, inv.responses⟩
        intro load member
        have same : load.nextBatch = since := failed load member
        have bound : since ≤ world.tables.count := position
        change load.nextBatch = world.tables.count
        simp only [Bool.or_eq_true, decide_eq_true_eq, not_or] at reached
        omega
    · cases step
  | load roomId reads =>
    simp only at step
    split at step
    · next phase =>
      rw [phase] at position failed
      split at step
      · cases step
        refine ⟨inv.numbered, position, inv.token, failed, ?_, inv.responses⟩
        obtain ⟨bound, fits⟩ := inv.results _ _ _ _ _ phase
        grind [fits_loadJoinedRoom]
      · cases step
    · cases step
  | finish otherUpdates =>
    simp only at step
    split at step
    · next phase =>
      split at step
      · cases step
        exact inv_finish inv phase _
      · cases step
    · cases step
  | wake =>
    simp only at step
    split at step
    · next phase =>
      rw [phase] at position failed
      split at step
      · cases step
        exact ⟨inv.numbered, position, inv.token, failed, nofun, inv.responses⟩
      · cases step
    · cases step
  | giveUp =>
    simp only at step
    split at step
    · next phase =>
      cases step
      rw [phase] at position failed
      exact ⟨inv.numbered, position, position, failed, nofun,
        fits_responses (fun _ _ member => absurd member List.not_mem_nil) inv.responses⟩
    · cases step
  | fail =>
    cases step
    exact ⟨inv.numbered, inv.token, inv.token, fun _ member => absurd member List.not_mem_nil, nofun, inv.responses⟩

theorem inv_run {labels : List Label} (run : Run (World.Step isState) w labels next) (inv : Inv isState w) :
    Inv isState next := run.invariant (Inv isState) (fun _ _ _ inv step => inv_step inv step) inv

theorem inv_init : Inv isState .init := by
  refine ⟨⟨nofun, nofun⟩, Nat.le_refl _, Nat.le_refl _, ?_, nofun, ?_⟩
  · intro load mem
    cases mem
  · intro response mem
    cases mem

theorem not_stillDelivered {pos count : Nat} {eventId : EventId} (inv : Inv isState w)
    (message : isState eventId = false) (passed : count ≤ pos) :
    ¬ StillDelivered isState w pos roomId count eventId := by
  rintro ⟨labels, later, added, run, more, response, mem, since, room, listed, shown⟩
  have listed_later : response ∈ later.responses := by
    rw [more]
    exact List.mem_append_left _ mem
  obtain ⟨after, states⟩ := (inv_run run inv).responses response listed_later roomId room listed
  rcases shown with inside | inside
  · grind
  · rw [states eventId inside] at message
    cases message

theorem run_sync {count : Nat} {roomId : RoomId} {eventId : EventId} (numbered : w.tables.Numbered)
    (idle : w.phase = .idle) (held : w.tables.pduidPdu roomId count = some eventId) (above : w.token < count) :
    ∃ labels later response, Run (World.Step isState) w labels later ∧
      later.responses = response :: w.responses ∧ response.since = w.token ∧
      ∃ room, (roomId, room) ∈ response.rooms ∧ room.Shows count eventId := by
  have covered := numbered.rows roomId count eventId held
  obtain ⟨room, loaded, shown⟩ := @loadJoinedRoom_everything isState _ w.token _ count eventId held above covered
  have shows : room.isEmpty = false := by
    unfold JoinedRoom.isEmpty
    rcases shown with inside | inside
    · simp [List.ne_nil_of_mem inside]
    · simp [List.ne_nil_of_mem inside]
  let req : Request := ⟨0, false, (ascending (w.tables.pduidPdu roomId) w.tables.count).length⟩
  have requested : w.Step isState (.request req) { w with
      phase := .looping req w.token } := by
    simp only [World.Step, World.step, idle]
  have sampled : World.Step isState { w with phase := .looping req w.token } (.sample [roomId])
      { w with phase := .building req w.token w.tables.count [roomId] [] } := by
    grind [World.Step, World.step]
  have built : World.Step isState
      { w with phase := .building req w.token w.tables.count [roomId] [] } (.load roomId everything)
      { w with phase := .building req w.token w.tables.count [roomId] [(roomId, .ok room)] } := by
    grind [World.Step, World.step]
  have finished : World.Step isState
      { w with phase := .building req w.token w.tables.count [roomId] [(roomId, .ok room)] }
      (.finish false) (World.respond { w with
        failed := []
        phase := .building req w.token w.tables.count [roomId] [(roomId, .ok room)] }
        ⟨w.token, w.tables.count, [(roomId, room)]⟩) := by
    simp [World.Step, World.step, World.finish, loadedRooms, failedLoads, Except.toOption, shows]
  exact ⟨_, _, ⟨w.token, w.tables.count, [(roomId, room)]⟩,
    .cons requested (.cons sampled (.cons built (.cons finished (.nil _)))), rfl, rfl, room,
    List.mem_singleton_self _, shown⟩

theorem stillDelivered {count : Nat} {eventId : EventId} (inv : Inv isState w)
    (resting : w.resting = true) (held : w.tables.pduidPdu roomId count = some eventId)
    (above : w.position < count) : StillDelivered isState w w.position roomId count eventId := by
  unfold World.position at above ⊢
  unfold World.resting at resting
  cases phase : w.phase with
  | idle =>
    rw [phase] at above
    obtain ⟨labels, later, response, run, added, since, shown⟩ := run_sync inv.numbered phase held above
    exact ⟨labels, later, [response], run, added, response, List.mem_singleton_self _, Nat.le_of_eq since.symm, shown⟩
  | waiting req nextBatch =>
    rw [phase] at above
    have gaveUp : w.Step isState .giveUp (w.respond ⟨nextBatch, nextBatch, []⟩) := by
      simp only [World.Step, World.step, phase]
    obtain ⟨labels, later, response, run, added, since, shown⟩ :=
      @run_sync isState (w.respond ⟨nextBatch, nextBatch, []⟩) count roomId eventId inv.numbered rfl held above
    exact ⟨_, later, [response, ⟨nextBatch, nextBatch, []⟩], .cons gaveUp run, added, response,
      List.mem_cons_self, Nat.le_of_eq since.symm, shown⟩
  | looping req since | building req since nextBatch rooms results =>
    rw [phase] at resting
    cases resting

/-- When a room failed to load in a response, a later sync that goes on from its position shows every message of
    the room after the request's position if and only if none of them is up to the response's position; and every
    event of the room where none at all is. -/
theorem failed_load_keeps_events {labels : List Label} {load : FailedLoad}
    (run : Run (World.Step isState) .init labels world) (resting : world.resting = true) (failed : load ∈ world.failed) :
    ((∀ count eventId, world.tables.pduidPdu load.roomId count = some eventId → load.since < count →
        isState eventId = false → StillDelivered isState world load.nextBatch load.roomId count eventId) ↔
      ∀ count eventId, world.tables.pduidPdu load.roomId count = some eventId → load.since < count →
        isState eventId = false → load.nextBatch < count) ∧
    ((∀ count eventId, world.tables.pduidPdu load.roomId count = some eventId → load.since < count →
        load.nextBatch < count) →
      ∀ count eventId, world.tables.pduidPdu load.roomId count = some eventId → load.since < count →
        StillDelivered isState world load.nextBatch load.roomId count eventId) := by
  have inv := inv_run run inv_init
  have position := inv.failed load failed
  have later : ∀ count eventId, world.tables.pduidPdu load.roomId count = some eventId → load.nextBatch < count →
      StillDelivered isState world load.nextBatch load.roomId count eventId := by
    intro count eventId held above
    rw [position] at above ⊢
    exact stillDelivered inv resting held above
  refine ⟨⟨?_, ?_⟩, ?_⟩
  · intro delivered count eventId held after message
    by_contra passed
    exact not_stillDelivered inv message (Nat.le_of_not_lt passed) (delivered count eventId held after message)
  · intro above count eventId held after message
    exact later count eventId held (above count eventId held after message)
  · intro above count eventId held after
    exact later count eventId held (above count eventId held after)

end Steps

namespace Sample

def plans : RoomId := ⟨"!plans:here"⟩

def lobby : RoomId := ⟨"!lobby:here"⟩

def message (_ : EventId) : Bool := false

def append (roomId : RoomId) (eventId : String) : List Label :=
  [.write (.appendCount roomId ⟨eventId⟩), .write (.appendRow roomId)]

def request : Request := ⟨30, false, 10⟩

def corrupt : Reads := { everything with row := fun _ => false }

def brokenRoom : List Label :=
  append plans "$agenda" ++ append lobby "$hello" ++
    [.request request, .sample [plans, lobby], .load lobby everything, .load plans corrupt, .finish false]

/-- One room loads and the other does not. The response moves the client's position past the event that it did
    not get, and no later sync shows it. -/
theorem failed_load_loses_event : ∃ world, Run (World.Step message) .init brokenRoom world ∧
    ⟨plans, 0, 2⟩ ∈ world.failed ∧ world.token = 2 ∧ world.tables.pduidPdu plans 1 = some ⟨"$agenda"⟩ ∧
    ¬ StillDelivered message world 2 plans 1 ⟨"$agenda"⟩ := by
  apply Run.exists_of_foldlM (fun world => ⟨plans, 0, 2⟩ ∈ world.failed ∧ world.token = 2 ∧
    world.tables.pduidPdu plans 1 = some ⟨"$agenda"⟩) (by decide +kernel) fun _ _ _ step => step
  rintro world run ⟨failed, token, held⟩
  exact ⟨failed, token, held, not_stillDelivered (inv_run run inv_init) rfl (by decide)⟩

def brokenQuietRoom : List Label :=
  append plans "$agenda" ++ [.request request, .sample [plans], .load plans everything, .finish false] ++
    append lobby "$hello" ++
    [.request request, .sample [plans, lobby], .load lobby everything, .load plans corrupt, .finish false] ++
    append plans "$minutes"

theorem failed_load_keeps_minutes : ∃ world, Run (World.Step message) .init brokenQuietRoom world ∧
    ⟨plans, 1, 2⟩ ∈ world.failed ∧ world.tables.pduidPdu plans 3 = some ⟨"$minutes"⟩ ∧
    ((∀ count eventId, world.tables.pduidPdu plans count = some eventId → 1 < count →
        message eventId = false → StillDelivered message world 2 plans count eventId) ↔
      ∀ count eventId, world.tables.pduidPdu plans count = some eventId → 1 < count →
        message eventId = false → 2 < count) ∧
    ((∀ count eventId, world.tables.pduidPdu plans count = some eventId → 1 < count → 2 < count) →
      ∀ count eventId, world.tables.pduidPdu plans count = some eventId → 1 < count →
        StillDelivered message world 2 plans count eventId) := by
  apply Run.exists_of_foldlM (fun world => world.resting ∧ ⟨plans, 1, 2⟩ ∈ world.failed ∧
    world.tables.pduidPdu plans 3 = some ⟨"$minutes"⟩) (by decide +kernel) fun _ _ _ step => step
  rintro world run ⟨rests, failed, held⟩
  exact ⟨failed, held, failed_load_keeps_events run rests failed⟩

end Sample

end Phantom.Sync.Rooms
