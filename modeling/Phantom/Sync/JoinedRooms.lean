import Phantom.SlidingSync.Server
import Phantom.Sync.Server

namespace Phantom.Sync.Rooms

open Phantom.Lib Phantom.Matrix

structure Reads where
  room : Bool
  row : Nat → Bool
  eventState : Bool
  roomState : Bool
  stateEvents : List EventId

inductive LoadError where
  | roomNotFound
  | unreadable (count : Nat)
  | noState
deriving DecidableEq

structure JoinedRoom where
  timeline : Timeline
  stateEvents : List EventId

def JoinedRoom.isEmpty (room : JoinedRoom) : Bool := room.timeline.events.isEmpty && room.stateEvents.isEmpty

def loadTimeline (rows : Nat → Option EventId) (reads : Reads) (since nextBatch limit : Nat) :
    Except LoadError Timeline :=
  let readable := fun count => if reads.row count then rows count else none
  if !reads.room then .error .roomNotFound
  else
    match (ascending rows nextBatch).getLast? with
    | none => .ok (Sync.loadTimeline readable since nextBatch limit)
    | some (count, _) =>
      if reads.row count then .ok (Sync.loadTimeline readable since nextBatch limit)
      else .error (.unreadable count)

def loadJoinedRoom (isState : EventId → Bool) (rows : Nat → Option EventId) (reads : Reads)
    (since nextBatch limit : Nat) : Except LoadError JoinedRoom := do
  let timeline ← loadTimeline rows reads since nextBatch limit
  if reads.eventState || reads.roomState then
    return ⟨timeline, reads.stateEvents.filter isState⟩
  else throw .noState

inductive Phase where
  | idle
  | looping (request : Request) (since : Nat)
  | building (request : Request) (since nextBatch : Nat) (rooms : List RoomId)
      (results : List (RoomId × Except LoadError JoinedRoom))
  | waiting (request : Request) (nextBatch : Nat)

structure FailedLoad where
  roomId : RoomId
  since : Nat
  nextBatch : Nat
deriving DecidableEq

structure Response where
  since : Nat
  nextBatch : Nat
  rooms : List (RoomId × JoinedRoom)

/-- The rooms' timelines and the syncs of one client. The last two fields only record what happened: the
    rooms that failed to load when the last response was built, and the responses that the client got. -/
structure World where
  tables : SlidingSync.Tables
  token : Nat
  phase : Phase
  failed : List FailedLoad
  responses : List Response

def World.init : World := ⟨.empty, 0, .idle, [], []⟩

inductive Label where
  | write (write : SlidingSync.Write)
  | request (request : Request)
  | sample (rooms : List RoomId)
  | load (roomId : RoomId) (reads : Reads)
  | finish (otherUpdates : Bool)
  | wake
  | giveUp
  | fail

def loadedRooms (results : List (RoomId × Except LoadError JoinedRoom)) : List (RoomId × JoinedRoom) :=
  results.filterMap fun result => result.2.toOption.map fun room => (result.1, room)

def failedLoads (since nextBatch : Nat) (results : List (RoomId × Except LoadError JoinedRoom)) : List FailedLoad :=
  results.filterMap (fun result =>
    match result.2 with
    | .ok _ => none
    | .error _ => some ⟨result.1, since, nextBatch⟩)

namespace World

def respond (world : World) (response : Response) : World :=
  { world with
    phase := .idle
    token := response.nextBatch
    responses := response :: world.responses }

/-- A room that failed to load is left out, and the position of the response stays the same. -/
def finish (world : World) (request : Request) (since nextBatch : Nat)
    (results : List (RoomId × Except LoadError JoinedRoom)) (otherUpdates : Bool) : World :=
  let joinedRooms := (loadedRooms results).filter fun room => !room.2.isEmpty
  let world := { world with failed := failedLoads since nextBatch results }
  if !(joinedRooms.isEmpty && !otherUpdates) || request.fullState then
    world.respond ⟨since, nextBatch, joinedRooms⟩
  else { world with phase := .waiting request nextBatch }

/-- The next step of the sync loop or of whatever writes to the tables. The rooms that the user is joined to, what
    can be read of them and what else the response holds is left open. -/
def step (isState : EventId → Bool) (world : World) : Label → Option World
  | .write write => (world.tables.write write).map fun tables => { world with tables := tables }
  | .request request =>
    match world.phase with
    | .idle => some { world with phase := .looping request world.token }
    | _ => none
  | .sample rooms =>
    match world.phase with
    | .looping request since =>
      let nextBatch := world.tables.count
      let since := min since nextBatch
      if since < nextBatch || request.fullState then
        some { world with phase := .building request since nextBatch rooms [] }
      else some { world with phase := .waiting request nextBatch }
    | _ => none
  | .load roomId reads =>
    match world.phase with
    | .building request since nextBatch rooms results =>
      if roomId ∈ rooms ∧ results.all (fun result => decide (result.1 ≠ roomId)) then
        let result := loadJoinedRoom isState (world.tables.pduidPdu roomId) reads since nextBatch
          request.timelineLimit
        some { world with phase := .building request since nextBatch rooms ((roomId, result) :: results) }
      else none
    | _ => none
  | .finish otherUpdates =>
    match world.phase with
    | .building request since nextBatch rooms results =>
      if rooms.all (fun roomId => results.any fun result => decide (result.1 = roomId)) then
        some (world.finish request since nextBatch results otherUpdates)
      else none
    | _ => none
  | .wake =>
    match world.phase with
    | .waiting request nextBatch =>
      if request.waits then some { world with phase := .looping request nextBatch } else none
    | _ => none
  | .giveUp =>
    match world.phase with
    | .waiting _ nextBatch => some (world.respond ⟨nextBatch, nextBatch, []⟩)
    | _ => none
  | .fail => some { world with phase := .idle, failed := [] }

def Step (isState : EventId → Bool) (world : World) (label : Label) (next : World) : Prop :=
  world.step isState label = some next

end World

end Phantom.Sync.Rooms
