import Phantom.Timeline.Tables

namespace Phantom.Timeline

open Phantom.Lib Phantom.Matrix Phantom.Rooms
open Phantom.StateRes (RoomVersionId)

/-- What appending an event takes from `ruma` beyond event authorization: further event contents, the text
    of canonical JSON errors, the redaction algorithm, and the redaction rights under power levels. -/
structure Contents where
  ruma : Ruma
  canonicalError : Json → String
  roomCreateVersion : Json → Option RoomVersionId
  roomRedactionRedacts : Json → Option (Option EventId)
  redact : RoomVersionId → Event → Event → Outcome Error (Json × CanonicalJsonObject)
  redactsOthers : Json → Option Event → UserId → Bool
  redactsOwn : Json → Option Event → UserId → Bool

section Append

variable (contents : Contents)

def getContent {α : Type} (target : String) (decode : Json → Option α) (event : Event) : Outcome Error α :=
  .ofOption (.database ("Failed to deserialize pdu content into type: " ++
    contents.ruma.jsonError target event.content)) (decode event.content)

def getRoomVersion (roomId : RoomId) : TimelineAction RoomVersionId :=
  Action.mapErr (fun error => .request .notFound ("No create event found: " ++ error.message)) (do
    let create ← roomStateGet roomId .roomCreate ""
    Action.lift (getContent contents "RoomCreateEventContent" contents.roomCreateVersion create))

def redactsOf (roomVersion : RoomVersionId) (pdu : Event) : Outcome Error (Option EventId) :=
  match roomVersion with
  | .v1 | .v2 | .v3 | .v4 | .v5 | .v6 | .v7 | .v8 | .v9 | .v10 => .ok pdu.redacts
  | _ => getContent contents "RoomRedactionEventContent" contents.roomRedactionRedacts pdu

def powerToRedact (roomId : RoomId) (sender : UserId) : TimelineAction (Bool × Bool) := do
  let levels ← roomStateGet roomId .roomPowerLevels ""
  let _ ← Action.lift (getContent contents "RoomPowerLevelsEventContent" contents.ruma.roomPowerLevels levels)
  let create ← (roomStateGet roomId .roomCreate "").attempt
  return (contents.redactsOthers levels.content create sender, contents.redactsOwn levels.content create sender)

def userCanRedact (redacts : EventId) (sender : UserId) (roomId : RoomId) (federation : Bool) :
    TimelineAction Bool := do
  let redacting := (← Action.get).getPdu redacts
  if redacting.any (fun pdu => pdu.roomId ≠ roomId) then return false
  else if redacting.any (fun pdu => pdu.eventType = .roomCreate) then
    Action.lift (.fail (.request .forbidden "Redacting m.room.create is not safe, forbidding."))
  else if redacting.any (fun pdu => pdu.eventType.toString = "m.room.server_acl") then
    Action.lift (.fail (.request .forbidden ("Redacting m.room.server_acl will result in the room being " ++
      "inaccessible for everyone (empty allow key), forbidding.")))
  else match ← (powerToRedact contents roomId sender).attempt with
    | some (others, own) =>
      let sameSender := redacting.any fun pdu =>
        if federation then contents.ruma.userServerName pdu.sender = contents.ruma.userServerName sender
        else pdu.sender = sender
      return others || (own && sameSender)
    | none =>
      match ← (roomStateGet roomId .roomCreate "").attempt with
      | some create => return create.sender = sender || redacting.any fun pdu => pdu.sender = sender
      | none => Action.lift (.fail (.database
          "No m.room.power_levels or m.room.create events in database for room"))

def Tables.replacePdu (tables : Tables) {id : EventId} (row : TimelineRow id) (content : Json)
    (json : CanonicalJsonObject) : Tables :=
  { tables with
    timeline := Function.update tables.timeline id
      (some ⟨row.pduId, { row.pdu with content := content }, json, row.filed⟩) }

def redactPdu (id : EventId) (reason : Event) : TimelineAction Unit := do
  match (← Action.get).timeline id with
  | none => return ()
  | some row =>
    if row.pdu.roomId ≠ reason.roomId then return ()
    else
      let roomVersion ← getRoomVersion contents row.pdu.roomId
      let (content, json) ← Action.lift (contents.redact roomVersion row.pdu reason)
      Action.modify fun tables => tables.replacePdu row content json

variable (pdu : Event)

def actOnRedaction : TimelineAction Unit := do
  let roomVersion ← getRoomVersion contents pdu.roomId
  match ← Action.lift (redactsOf contents roomVersion pdu) with
  | none => return ()
  | some redacts =>
    if ← userCanRedact contents redacts pdu.sender pdu.roomId false then redactPdu contents redacts pdu
    else return ()

def prevStateOf (stateKey : String) : TimelineAction Event := do
  stateGet (← pduShortstatehash pdu.eventId) pdu.eventType stateKey

def prevContentMembers (prevState : Event) (content : List (String × Json)) (unsigned : List (String × Json)) :
    List (String × Json) :=
  let unsigned := BTreeMap.insertEntry "prev_content" (.object content) unsigned
  let unsigned := BTreeMap.insertEntry "prev_sender" (.string prevState.sender.asStr) unsigned
  BTreeMap.insertEntry "replaces_state" (.string prevState.eventId.asStr) unsigned

def toCanonicalObject (content : Json) : Outcome Error (List (String × Json)) :=
  .ofOption (.database ("Failed to convert prev_state to canonical JSON: " ++ contents.canonicalError content))
    (contents.ruma.canonicalObject content)

variable (pduJson : CanonicalJsonObject)

def unsignedOf : Json := (pduJson.get "unsigned").getD (.object [])

def addPrevContent : TimelineAction CanonicalJsonObject :=
  match pdu.stateKey with
  | none => return pduJson
  | some stateKey =>
    match unsignedOf pduJson with
    | .object unsigned => do
      match ← (prevStateOf pdu stateKey).attempt with
      | none => return pduJson.insert "unsigned" (.object unsigned)
      | some prevState =>
        let content ← Action.lift (toCanonicalObject contents prevState.content)
        return pduJson.insert "unsigned" (.object (prevContentMembers prevState content unsigned))
    | _ => Action.lift (.fail (.database "Invalid unsigned type in pdu."))

def insert (shortroomid : ShortRoomId) : TimelineAction PduId := do
  let _readCount ← onRooms nextCount
  let _lastUpdate ← onRooms nextCount
  let count ← onRooms nextCount
  Action.modify fun tables => tables.fileTimeline ⟨shortroomid, count⟩ pdu pduJson
  return ⟨shortroomid, count⟩

def actOnKind : TimelineAction Unit :=
  if pdu.eventType = .roomRedaction then actOnRedaction contents pdu else return ()

def appendPdu (leafs : List EventId) : TimelineAction PduId := do
  let shortroomid ← Action.lift (.ofOption (.database "Room does not exist")
    ((← Action.get).shortroomids pdu.roomId))
  let pduJson ← addPrevContent contents pdu pduJson
  Action.modify fun tables => tables.setForwardExtremities pdu.roomId leafs
  let pduId ← insert pdu pduJson shortroomid
  let _ ← (actOnKind contents pdu).attempt
  return pduId

def appendIncomingPdu (sha256 : List UInt8 → Digest) (pdu : Event) (pduJson : CanonicalJsonObject)
    (newRoomLeafs : List EventId) (stateIds : CompressedState) (softFail : Bool) :
    TimelineAction (Option PduId) := do
  let _ ← onRooms (setEventState sha256 pdu.eventId pdu.roomId stateIds)
  if softFail then return none
  else
    let pduId ← appendPdu contents pdu pduJson newRoomLeafs
    return some pduId

end Append

end Phantom.Timeline
