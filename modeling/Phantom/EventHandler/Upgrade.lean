import Phantom.EventHandler.State

namespace Phantom.EventHandler

open Phantom.Lib Phantom.Matrix Phantom.Rooms Phantom.Timeline
open Phantom.StateRes (RoomVersionId RoomVersion)

structure Incoming where
  pdu : Event
  value : CanonicalJsonObject
  origin : ServerName
  roomId : RoomId

inductive Verdict where
  | known (pduId : Option PduId)
  | softFail (stateAtEvent : CompressedState)
  | accept (roomVersionId : RoomVersionId) (stateAtEvent : CompressedState) (stateAfter : StateAtEvent)

section Upgrade

variable (handler : Handler) (incoming : Incoming) (roomVersionId : RoomVersionId)

def storedStateAtEvent : TimelineAction (Option StateAtEvent) :=
  match incoming.pdu.prevEvents with
  | [prevEvent] => stateAtIncomingDegreeOne prevEvent
  | prevEvents => stateAtIncomingResolved handler prevEvents incoming.roomId roomVersionId

def stateAtEvent : TimelineAction StateAtEvent := do
  match ← storedStateAtEvent handler incoming roomVersionId with
  | some state => return state
  | none =>
    match ← fetchState handler incoming.origin incoming.pdu.eventId with
    | some state => return state
    | none => Action.lift (.fail (.request .notFound "The state at the event could not be established."))

variable (roomVersion : RoomVersion)

def authCheck (pdu : Event) (fetch : TypeStateKey → Option Event) :
    TimelineAction Bool :=
  Action.mapErr Error.stateRes (Action.lift (StateRes.authCheck handler.contents.ruma roomVersion pdu none fetch))

def authorizedAgainst (pdu : Event) (state : StateAtEvent) :
    TimelineAction Bool := do
  let tables ← Action.get
  authCheck handler roomVersion pdu fun key =>
    ((tables.rooms.shortstatekeys key).bind fun short => state.lookup short).bind tables.getPdu

variable (roomId : RoomId)

/-- What `room_state_get` answers; the states that it caches on the way are left out. -/
def currentEvent (tables : Tables) (key : TypeStateKey) : Option Event :=
  match (roomStateGet roomId key.1 key.2 tables).1 with
  | .ok event => some event
  | .error _ => none

def authorizedAgainstCurrent (pdu : Event) (roomId : RoomId) :
    TimelineAction Bool := do
  let tables ← Action.get
  authCheck handler roomVersion pdu (currentEvent roomId tables)

def redactsId (pdu : Event) (roomVersionId : RoomVersionId) : Option EventId :=
  if pdu.eventType ≠ .roomRedaction then none
  else match redactsOf handler.contents roomVersionId pdu with
    | .ok redacts => redacts
    | .error _ => none

def softFailOf (authorizedNow : Bool) : TimelineAction Bool :=
  match authorizedNow, redactsId handler incoming.pdu roomVersionId with
  | false, _ => return true
  | true, none => return false
  | true, some redacts => do
    let permitted ← userCanRedact handler.contents redacts incoming.pdu.sender incoming.roomId true
    return !permitted

def stateAfter (pdu : Event) (state : StateAtEvent) : TimelineAction StateAtEvent :=
  insertPrev pdu.eventId pdu state

def checkIncoming : TimelineAction Verdict := do
  let roomVersionId ← getRoomVersion handler.contents incoming.roomId
  let roomVersion ← Action.mapErr Error.stateRes (Action.lift (RoomVersion.new roomVersionId))
  let state ← stateAtEvent handler incoming roomVersionId
  let authorized ← authorizedAgainst handler roomVersion incoming.pdu state
  if !authorized then
    Action.lift (.fail (.request .forbidden "Event did not pass auth check against the state at the event."))
  else
    let authorizedNow ← authorizedAgainstCurrent handler roomVersion incoming.pdu incoming.roomId
    let softFail ← softFailOf handler incoming roomVersionId authorizedNow
    let after ← stateAfter incoming.pdu state
    let compressed ← compress handler state
    if softFail then return .softFail compressed else return .accept roomVersionId compressed after

def checks : TimelineAction Verdict := do
  let tables ← Action.get
  match tables.timeline incoming.pdu.eventId with
  | some row => return .known (some row.pduId)
  | none =>
    if tables.softfailed incoming.pdu.eventId then return .known none else checkIncoming handler incoming

def extremities (pdu : Event) : TimelineAction (List EventId) := do
  let tables ← Action.get
  let others := (tables.getForwardExtremities roomId).filter fun eventId => eventId ∉ pdu.prevEvents
  return others.filter tables.pduExists

def updateMember (event : CompressedStateEvent) : TimelineAction Unit := do
  let tables ← Action.get
  match (tables.rooms.eventids event.shorteventid).bind tables.getPdu with
  | none => return ()
  | some pdu =>
    match pdu.eventType, pdu.stateKey.map handler.contents.ruma.userId,
        handler.contents.ruma.roomMemberMembership pdu.content with
    | .roomMember, some (.ok userId), some _ => Action.lift (handler.updateMembership roomId userId pdu)
    | _, _, _ => return ()

def forceState (shortstatehash : ShortStateHash) (statediffnew : CompressedState) :
    TimelineAction Unit := do
  statediffnew.iter.foldlM (fun _ event => updateMember handler roomId event) ()
  Action.modify fun tables => { tables with rooms := setRoomState roomId shortstatehash tables.rooms }

def installState (resolved : CompressedState) : TimelineAction Unit := do
  let saved ← onRooms (saveState handler.sha256 roomId resolved)
  forceState handler roomId saved.shortstatehash saved.added

def installAfter (after : StateAtEvent) : TimelineAction Unit :=
  if incoming.pdu.stateKey.isSome then do
    let resolved ← resolveState handler incoming.roomId roomVersionId after
    installState handler incoming.roomId resolved
  else return ()

def place : Verdict → TimelineAction (Option PduId)
  | .known pduId => return pduId
  | .softFail compressed => do
    let _ ← appendIncomingPdu handler.contents handler.sha256 incoming.pdu incoming.value [] compressed true
    Action.modify fun tables => tables.markSoftFailed incoming.pdu.eventId
    return none
  | .accept roomVersionId compressed after => do
    let leafs ← extremities incoming.roomId incoming.pdu
    installAfter handler incoming roomVersionId after
    appendIncomingPdu handler.contents handler.sha256 incoming.pdu incoming.value
      (leafs ++ [incoming.pdu.eventId]) compressed false

def upgradeOutlierToTimelinePdu : TimelineAction (Option PduId) := do
  let verdict ← checks handler incoming
  place handler incoming verdict

end Upgrade

end Phantom.EventHandler
