import Phantom.Timeline.Append

namespace Phantom.EventHandler

open Phantom.Lib Phantom.Matrix Phantom.Rooms Phantom.Timeline
open Phantom.StateRes (RoomVersionId StateMap Schedule)

abbrev StateAtEvent := HashMap ShortStateKey EventId

/-- What the handler works with besides the tables: the orders of its hash maps and of state resolution,
    the auth chain service, the answers of other servers with the outliers they lead to, and how the
    membership cache takes a member event. -/
structure Handler where
  contents : Contents
  sha256 : List UInt8 → Digest
  stateOrder : HashOrder ShortStateKey
  resolvedOrder : HashOrder TypeStateKey
  schedule : Schedule
  fuel : Nat
  automaticWidth : Nat
  getAuthChain : Tables → RoomId → List EventId → Option (List ShortEventId)
  roomStateIds : ServerName → EventId → Option (List EventId × List EventId)
  handledOutliers : Tables → ServerName → List EventId → List Event
  updateMembership : RoomId → UserId → Event → Outcome Timeline.Error Unit

section States

variable (handler : Handler)

def insertPrev (prevEvent : EventId) (prevPdu : Event) (state : StateAtEvent) : TimelineAction StateAtEvent :=
  match prevPdu.stateKey with
  | none => return state
  | some stateKey => do
    let shortstatekey ← onRooms (getOrCreateShortstatekey prevPdu.eventType stateKey)
    return state.insert shortstatekey prevEvent

def stateAtIncomingDegreeOne (prevEvent : EventId) : TimelineAction (Option StateAtEvent) := do
  match ← (pduShortstatehash prevEvent).attempt with
  | none => return none
  | some prevEventSstatehash =>
    let state := HashMap.collect (← stateFullIds prevEventSstatehash)
    match (← Action.get).getPdu prevEvent with
    | none => return none
    | some prevPdu => return some (← insertPrev prevEvent prevPdu state)

def authChainOf (roomId : RoomId) (startingEvents : List EventId) : TimelineAction (List EventId) := do
  let tables ← Action.get
  return ((handler.getAuthChain tables roomId startingEvents).getD []).filterMap tables.rooms.eventids

def spellOut (state : StateAtEvent) : TimelineAction (StateMap EventId) := do
  let statekeys := (← Action.get).rooms.statekeys
  return HashMap.collect ((handler.stateOrder.iterate state).filterMap
    (fun entry => (statekeys entry.1).map fun key => (key, entry.2)))

def shorten (state : StateMap EventId) : TimelineAction StateAtEvent :=
  (handler.resolvedOrder.iterate state).foldlM (fun shortened entry => do
    let shortstatekey ← onRooms (getOrCreateShortstatekey entry.1.1 entry.1.2)
    return shortened.insert shortstatekey entry.2) ∅

def forkOf (roomId : RoomId) (state : StateAtEvent) : TimelineAction (StateMap EventId × Finset EventId) := do
  let authChain ← authChainOf handler roomId ((handler.stateOrder.iterate state).map Prod.snd)
  let forkState ← spellOut handler state
  return (forkState, authChain.toFinset)

def resolveForks (roomVersionId : RoomVersionId) (forks : List (StateMap EventId × Finset EventId)) :
    TimelineAction StateAtEvent := do
  let tables ← Action.get
  let resolved ← Action.mapErr
    (fun error => .database ("State resolution failed: " ++ Error.stateResMessage error))
    (Action.lift (StateRes.resolve handler.contents.ruma tables.eventStore tables.pduExists handler.schedule
      handler.fuel handler.automaticWidth roomVersionId ⟨forks.map Prod.fst, forks.map Prod.snd⟩))
  shorten handler resolved

def forksAfter (roomId : RoomId) :
    List EventId → TimelineAction (Option (List (StateMap EventId × Finset EventId)))
  | [] => return some []
  | prevEventId :: prevEvents => do
    match (← Action.get).getPdu prevEventId with
    | none => return none
    | some prevEvent =>
      match ← (pduShortstatehash prevEventId).attempt with
      | none => return none
      | some sstatehash =>
        let leafState ← insertPrev prevEventId prevEvent (HashMap.collect (← stateFullIds sstatehash))
        let fork ← forkOf handler roomId leafState
        match ← forksAfter roomId prevEvents with
        | none => return none
        | some forks => return some (fork :: forks)

def stateAtIncomingResolved (prevEvents : List EventId) (roomId : RoomId) (roomVersionId : RoomVersionId) :
    TimelineAction (Option StateAtEvent) := do
  match ← forksAfter handler roomId prevEvents with
  | none => return none
  | some forks => return some (← resolveForks handler roomVersionId forks)

def fetchAndHandleOutliers (origin : ServerName) (events : List EventId) : TimelineAction (List Event) := do
  Action.modify fun tables => (handler.handledOutliers tables origin events).foldl Tables.addPduOutlier tables
  let tables ← Action.get
  return events.filterMap tables.getPdu

def placeFetched : List Event → StateAtEvent → TimelineAction (Option StateAtEvent)
  | [], state => return some state
  | pdu :: pdus, state =>
    match pdu.stateKey with
    | none => placeFetched pdus state
    | some stateKey => do
      let shortstatekey ← onRooms (getOrCreateShortstatekey pdu.eventType stateKey)
      if (state.lookup shortstatekey).any (fun previous => previous ≠ pdu.eventId) then return none
      else placeFetched pdus (state.insert shortstatekey pdu.eventId)

def fetchState (origin : ServerName) (eventId : EventId) : TimelineAction (Option StateAtEvent) :=
  match handler.roomStateIds origin eventId with
  | none => return none
  | some (authChainIds, pduIds) => do
    let _ ← fetchAndHandleOutliers handler origin authChainIds
    let events ← fetchAndHandleOutliers handler origin pduIds
    match ← placeFetched events ∅ with
    | none => return none
    | some state =>
      let createKey ← onRooms (getOrCreateShortstatekey .roomCreate "")
      if createKey ∈ state.keys then return some state else return none

def compress (state : StateAtEvent) : TimelineAction CompressedState :=
  (handler.stateOrder.iterate state).foldlM (fun compressed entry => do
    let shorteventid ← onRooms (getOrCreateShorteventid entry.2)
    return Insert.insert (compressStateEvent entry.1 shorteventid) compressed) ∅

def resolveState (roomId : RoomId) (roomVersionId : RoomVersionId) (incomingState : StateAtEvent) :
    TimelineAction CompressedState := do
  let currentSstatehash ← (getRoomShortstatehash roomId).mapErr
    (fun error => Error.database ("No state for " ++ roomId.asStr ++ ": " ++ error.message))
  let currentState := HashMap.collect (← stateFullIds currentSstatehash)
  let current ← forkOf handler roomId currentState
  let incoming ← forkOf handler roomId incomingState
  compress handler (← resolveForks handler roomVersionId [current, incoming])

end States

end Phantom.EventHandler
