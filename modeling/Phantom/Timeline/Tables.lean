import Phantom.Lib.Frame
import Phantom.Rooms.State
import Phantom.StateRes.Resolve

namespace Phantom.Timeline

open Phantom.Lib Phantom.Matrix Phantom.Rooms

abbrev ShortRoomId := ShortId

abbrev CanonicalJsonObject := BTreeMap String Json

inductive ErrorKind where
  | notFound
  | forbidden
  | badJson
  | invalidParam
  | tooLarge
  | roomInUse
  | unknown
deriving DecidableEq, Repr

def ErrorKind.errcode : ErrorKind → String
  | notFound => "M_NOT_FOUND"
  | forbidden => "M_FORBIDDEN"
  | badJson => "M_BAD_JSON"
  | invalidParam => "M_INVALID_PARAM"
  | tooLarge => "M_TOO_LARGE"
  | roomInUse => "M_ROOM_IN_USE"
  | unknown => "M_UNKNOWN"

inductive Error where
  | request (kind : ErrorKind) (message : String)
  | database (message : String)
  | arithmetic (message : String)
  | inconsistentRoomState (message : String) (roomId : RoomId)
  | json (message : String)
  | stateRes (error : StateRes.Error)
deriving DecidableEq, Repr

namespace Error

def stateResMessage : StateRes.Error → String
  | .serdeJson message => message
  | .unsupported message => "Unsupported room version: " ++ message
  | .notFound message => "Not found error: " ++ message
  | .invalidPdu message => "Invalid PDU: " ++ message

def message : Error → String
  | request kind message => kind.errcode ++ ": " ++ message
  | database message => message
  | arithmetic message => "Arithmetic operation failed: " ++ message
  | inconsistentRoomState message roomId => message ++ " in " ++ roomId.asStr
  | json message => message
  | stateRes error => stateResMessage error

def ofRooms : Rooms.Error → Error
  | .arithmetic message => .arithmetic message
  | .database message => .database message

def missing : Error := .request .notFound "Not found in database"

end Error

structure PduId where
  shortroomid : ShortRoomId
  count : UInt64
deriving DecidableEq, Repr

/-- A row of the timeline, under the ID of its event. -/
structure TimelineRow (id : EventId) where
  pduId : PduId
  pdu : Event
  json : CanonicalJsonObject
  filed : pdu.eventId = id

structure OutlierRow (id : EventId) where
  pdu : Event
  filed : pdu.eventId = id

/-- The tables of room state with those of events, and each room's forward extremities. -/
structure Tables where
  rooms : Store
  shortroomids : RoomId → Option ShortRoomId
  timeline : (id : EventId) → Option (TimelineRow id)
  outliers : (id : EventId) → Option (OutlierRow id)
  softfailed : EventId → Bool
  pduleaves : RoomId → Finset EventId

namespace Tables

def empty : Tables where
  rooms := .empty
  shortroomids := fun _ => none
  timeline := fun _ => none
  outliers := fun _ => none
  softfailed := fun _ => false
  pduleaves := fun _ => ∅

variable (tables t : Tables)

def getPdu (id : EventId) : Option Event :=
  match tables.timeline id with
  | some row => some row.pdu
  | none => (tables.outliers id).map OutlierRow.pdu

def pduExists (id : EventId) : Bool := (tables.timeline id).isSome || (tables.outliers id).isSome

theorem getPdu_filed {t : Tables} {id : EventId} {pdu : Event} (found : t.getPdu id = some pdu) :
    pdu.eventId = id := by
  grind [TimelineRow.filed, Option.map_eq_some_iff, OutlierRow.filed, getPdu]

def eventStore : StateRes.EventStore where
  fetch := tables.getPdu
  fetch_id := getPdu_filed

def getForwardExtremities (roomId : RoomId) : List EventId :=
  (HashOrder.ascending id Function.injective_id).list (tables.pduleaves roomId)

@[simp] theorem mem_getForwardExtremities {t : Tables} {roomId : RoomId} {id : EventId} :
    id ∈ t.getForwardExtremities roomId ↔ id ∈ t.pduleaves roomId := HashOrder.mem_list _

theorem length_getForwardExtremities (t : Tables) (roomId : RoomId) :
    (t.getForwardExtremities roomId).length = (t.pduleaves roomId).card := HashOrder.length_list _ _

def setForwardExtremities (roomId : RoomId) (eventIds : List EventId) : Tables :=
  { tables with pduleaves := Function.update tables.pduleaves roomId eventIds.toFinset }

def addPduOutlier (pdu : Event) : Tables :=
  { tables with outliers := Function.update tables.outliers pdu.eventId (some ⟨pdu, rfl⟩) }

/-- `append_pdu` of the timeline's data: the event leaves the outliers. -/
def fileTimeline (pduId : PduId) (pdu : Event) (json : CanonicalJsonObject) : Tables :=
  { tables with
    timeline := Function.update tables.timeline pdu.eventId (some ⟨pduId, pdu, json, rfl⟩)
    outliers := Function.update tables.outliers pdu.eventId none }

def markSoftFailed (id : EventId) : Tables :=
  { tables with softfailed := Function.update tables.softfailed id true }

end Tables

abbrev TimelineAction := Action Tables Error

def onRooms {α : Type} (action : StoreAction α) : TimelineAction α :=
  action.zoom Tables.rooms (fun rooms tables => { tables with rooms := rooms }) Error.ofRooms

def readRow {α : Type} (row : Tables → Option α) : TimelineAction α := do
  Action.lift (.ofOption .missing (row (← Action.get)))

section StateAccessor

def getRoomShortstatehash (roomId : RoomId) : TimelineAction ShortStateHash :=
  readRow fun tables => tables.rooms.roomShortstatehashes roomId

def pduShortstatehash (id : EventId) : TimelineAction ShortStateHash :=
  readRow fun tables => (tables.rooms.shorteventids id).bind tables.rooms.eventShortstatehashes

variable (shortstatehash : ShortStateHash)

def loadFullState : TimelineAction CompressedState := do
  let stack ← (onRooms (loadShortstatehashInfo shortstatehash)).mapErr
    (fun error => .database ("Missing state IDs: " ++ error.message))
  let top ← Action.lift (.expect "at least one layer" stack.getLast?)
  return top.fullState

def stateFullIds : TimelineAction (List (ShortStateKey × EventId)) := do
  let fullState := (← (loadFullState shortstatehash).attempt).getD ∅
  let eventids := (← Action.get).rooms.eventids
  return fullState.iter.filterMap
    (fun event => (eventids event.shorteventid).map fun id => (event.shortstatekey, id))

variable (eventType : EventType) (stateKey : String)

def stateGetShortid :
    TimelineAction ShortEventId := do
  let shortstatekey ← readRow fun tables => tables.rooms.shortstatekeys (eventType, stateKey)
  let fullState ← loadFullState shortstatehash
  let event ← Action.lift (.ofOption (.request .notFound "Not found in room state")
    (fullState.entryOf shortstatekey))
  return event.shorteventid

def stateGetId :
    TimelineAction EventId := do
  let shorteventid ← stateGetShortid shortstatehash eventType stateKey
  Action.lift (.ofOption (.database s!"Failed to find EventId from short {shorteventid.toNat}: {notFoundInDatabase}")
    ((← Action.get).rooms.eventids shorteventid))

def stateGet :
    TimelineAction Event := do
  let id ← stateGetId shortstatehash eventType stateKey
  readRow fun tables => tables.getPdu id

def roomStateGet (roomId : RoomId) (eventType : EventType) (stateKey : String) : TimelineAction Event := do
  stateGet (← getRoomShortstatehash roomId) eventType stateKey

end StateAccessor

end Phantom.Timeline
