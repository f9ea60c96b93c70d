import Phantom.Lib.Runs
import Phantom.Sync.LazyLoading

namespace Phantom.Sync.Lazy

open Phantom.Lib Phantom.Matrix

abbrev Members := List (UserId × EventId)

def Members.has (members : Members) (user : UserId) : Bool := members.any fun entry => decide (entry.1 = user)

/-- What a load finds of a room: who sent the loaded events and whose receipts are new, the senders whose events
    are shown, the users with a membership event among those, and the memberships in the state before the
    first event and at the newest one. -/
structure RoomView where
  senders : List UserId
  readers : List UserId
  shown : UserId → Bool
  timelineMembers : List UserId
  horizon : Option Members
  current : Members
  encrypted : Bool
  joinedSinceLastSync : Bool

structure Request where
  waits : Bool
  fullState : Bool
  includeRedundant : Bool

structure RoomResult where
  witness : List UserId
  senders : List UserId
  readers : List UserId
  timelineMembers : List UserId
  stateMembers : List UserId
  current : Members
  encrypted : Bool

namespace RoomResult

def shows (result : RoomResult) (user : UserId) : Bool :=
  decide (user ∈ result.timelineMembers) || decide (user ∈ result.stateMembers)

def isEmpty (result : RoomResult) : Bool :=
  result.senders.isEmpty && result.readers.isEmpty && result.timelineMembers.isEmpty && result.stateMembers.isEmpty

end RoomResult

/-- The membership events of the state section. Those of other users are left to lazy loading unless the room is
    encrypted. -/
def calculateStateMembers (senderUser : UserId) (request : Request) (view : RoomView) (sinceState : Option Members)
    (witness : List UserId) : List UserId :=
  let initial := request.fullState || sinceState.isNone || view.joinedSinceLastSync
  let incremental := !initial && decide (sinceState ≠ some view.current)
  let horizon := view.horizon.getD view.current
  let since := sinceState.getD horizon
  let stateIds := if initial then horizon else if incremental then horizon.filter (fun entry => entry ∉ since) else []
  if view.encrypted then stateIds.map Prod.fst
  else
    (stateIds.filter fun entry => decide (entry.1 = senderUser)).map Prod.fst ++ witness.filter horizon.has

inductive Phase where
  | idle
  | looping (request : Request) (since : Nat)
  | building (request : Request) (since nextBatch : Nat) (results : List (RoomId × RoomResult))
  | waiting (request : Request) (nextBatch : Nat)
  | responded (nextBatch : Nat) (results : List (RoomId × RoomResult))

structure Received where
  results : List (RoomId × RoomResult)
  known : RoomId → UserId → Bool

/-- The rows of one device, the states recorded for positions, and the syncs of the device's client. The last five
    only record what happened: whether a room was reset since the client started over, the members the client
    was told of since then, the senders and readers of responses for the client's position that it did not
    get, the memberships at the client's position of which it has all, and the responses that it got. -/
structure World where
  count : Nat
  lazyloadedids : RoomId → LazyLoadedIds
  tokenStates : RoomId → Nat → Option Members
  token : Nat
  phase : Phase
  started : RoomId → Bool
  known : RoomId → UserId → Bool
  lost : List (RoomId × UserId)
  whole : RoomId → Option Members
  received : List Received

def World.init : World where
  count := 0
  lazyloadedids := fun _ _ => none
  tokenStates := fun _ _ => none
  token := 0
  phase := .idle
  started := fun _ => true
  known := fun _ _ => false
  lost := []
  whole := fun _ => none
  received := []

inductive Label where
  | nextCount
  | associate (roomId : RoomId) (token : Nat) (state : Members)
  | request (request : Request) (restart : Bool)
  | sample
  | load (roomId : RoomId) (view : RoomView)
  | finish (otherUpdates : Bool)
  | wake
  | giveUp
  | fail
  | receive
  | lose

def witnesses (results : List (RoomId × RoomResult)) : List (RoomId × UserId) :=
  results.flatMap fun result => result.2.witness.map fun user => (result.1, user)

namespace World

variable (world : World) (roomId : RoomId)

def initial (since : Nat) : Bool :=
  since == 0 || (world.tokenStates roomId since).isNone

def reset : World :=
  { world with
    lazyloadedids := Function.update world.lazyloadedids roomId fun _ => none
    started := Function.update world.started roomId true
    known := Function.update world.known roomId fun _ => false
    lost := world.lost.filter fun pair => decide (pair.1 ≠ roomId)
    whole := Function.update world.whole roomId none }

def resetIfInitial (since : Nat) : World :=
  if world.initial roomId since then world.reset roomId else world

def associateToken (token : Nat) (state : Members) : World :=
  { world with
    tokenStates := Function.update world.tokenStates roomId
      (Function.update (world.tokenStates roomId) token (some state)) }

def restart : World :=
  { world with
    token := 0
    started := fun _ => false
    known := fun _ _ => false
    lost := []
    whole := fun _ => none }

variable (senderUser : UserId)

def loadJoinedRoom (world : World) (request : Request) (since nextBatch : Nat) (roomId : RoomId)
    (view : RoomView) : World × RoomResult :=
  let sinceState := world.tokenStates roomId since
  let world := world.resetIfInitial roomId since
  let senders := (view.senders ++ view.readers).dedup
  let (kept, ids) := witnessRetain ⟨some since, request.includeRedundant⟩ senders (world.lazyloadedids roomId)
  let stateMembers := calculateStateMembers senderUser request view sinceState kept
  ({ world.associateToken roomId nextBatch view.current with
    lazyloadedids := Function.update world.lazyloadedids roomId ids },
    ⟨senders, view.senders.filter view.shown, view.readers, view.timelineMembers, stateMembers, view.current,
      view.encrypted⟩)

def respond (nextBatch : Nat) (results : List (RoomId × RoomResult)) : World :=
  { world with phase := .responded nextBatch results }

def receive (nextBatch : Nat) (results : List (RoomId × RoomResult)) : World :=
  { world with
    phase := .idle
    token := nextBatch
    known := fun roomId user => world.known roomId user ||
      results.any fun result => decide (result.1 = roomId) && result.2.shows user
    lost := if nextBatch = world.token then world.lost else []
    whole := fun roomId =>
      (results.find? fun result => decide (result.1 = roomId) && result.2.encrypted).map
        (fun result => result.2.current)
    received := ⟨results, world.known⟩ :: world.received }

def lose (results : List (RoomId × RoomResult)) : World :=
  { world with phase := .idle, lost := witnesses results ++ world.lost }

/-- The next step of the server or the client. What is found of a room is left open, as are the other positions that
    states are recorded for. -/
def step (world : World) : Label → Option World
  | .nextCount => some { world with count := world.count + 1 }
  | .associate roomId token state => some (world.associateToken roomId token state)
  | .request request restart =>
    match world.phase with
    | .idle =>
      let world := if restart then world.restart else world
      some { world with phase := .looping request world.token }
    | _ => none
  | .sample =>
    match world.phase with
    | .looping request since =>
      let nextBatch := world.count
      let since := min since nextBatch
      if since < nextBatch || request.fullState then
        some { world with phase := .building request since nextBatch [] }
      else some { world with phase := .waiting request nextBatch }
    | _ => none
  | .load roomId view =>
    match world.phase with
    | .building request since nextBatch results =>
      if results.any (fun result => decide (result.1 = roomId)) then none
      else
        let (world, result) := world.loadJoinedRoom senderUser request since nextBatch roomId view
        some { world with phase := .building request since nextBatch ((roomId, result) :: results) }
    | _ => none
  | .finish otherUpdates =>
    match world.phase with
    | .building request _ nextBatch results =>
      let empty := results.all (fun result => result.2.isEmpty) && !otherUpdates
      if !empty || request.fullState then some (world.respond nextBatch results)
      else some { world with phase := .waiting request nextBatch, lost := [] }
    | _ => none
  | .wake =>
    match world.phase with
    | .waiting request nextBatch =>
      if request.waits then some { world with phase := .looping request nextBatch } else none
    | _ => none
  | .giveUp =>
    match world.phase with
    | .waiting _ nextBatch => some (world.respond nextBatch [])
    | _ => none
  | .fail =>
    match world.phase with
    | .looping _ _ | .waiting _ _ => some { world with phase := .idle }
    | .building _ _ _ results => some (world.lose results)
    | _ => none
  | .receive =>
    match world.phase with
    | .responded nextBatch results => some (world.receive nextBatch results)
    | _ => none
  | .lose =>
    match world.phase with
    | .responded _ results => some (world.lose results)
    | _ => none

def Step (world : World) (label : Label) (next : World) : Prop :=
  world.step senderUser label = some next

end World

end Phantom.Sync.Lazy
