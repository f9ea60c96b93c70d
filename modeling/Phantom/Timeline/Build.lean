import Phantom.Timeline.Append

namespace Phantom.Timeline

open Phantom.Lib Phantom.Matrix Phantom.Rooms
open Phantom.StateRes (RoomVersionId RoomVersion StateMap)

def maxPrevEvents : Nat := 20

structure PduBuilder where
  eventType : EventType
  content : Json
  unsigned : List (String × Json)
  stateKey : Option String
  redacts : Option EventId
  timestamp : Option Nat

/-- What building an event takes from outside the tables: the clock, the order of a hash map, the room
    version rules of `ruma`, the server's signature and the event ID it leads to, the admin room, and how
    the event is queued for other servers. -/
structure Builder where
  contents : Contents
  nowMillis : Nat
  authOrder : HashOrder TypeStateKey
  stateResDebug : StateRes.Error → String
  createOmitsRoomId : RoomVersionId → Bool
  validRoomId : String → Bool
  hashAndSign : RoomVersionId → Event → List (String × Json) → Outcome Error (CanonicalJsonObject × EventId)
  isAdminRoom : Tables → RoomId → Bool
  checkPduForAdminRoom : Tables → Event → UserId → Outcome Error Unit
  userIsLocal : UserId → Bool
  roomMember : Json → Option (MembershipState × Option UserId)
  sendPduServers : Tables → Event → PduId → Outcome Error Unit

section Build

variable (builder : Builder)

def getAuthEvents (roomId : RoomId) (roomVersion : RoomVersion) (pdu : PduBuilder) (sender : UserId) :
    TimelineAction (StateMap Event) := do
  match (← Action.get).rooms.roomShortstatehashes roomId with
  | none => return ∅
  | some shortstatehash =>
    let authTypes ← Action.mapErr Error.stateRes (Action.lift (StateRes.authTypesForEvent
      builder.contents.ruma roomVersion pdu.eventType sender pdu.stateKey pdu.content))
    let fullState := (← (loadFullState shortstatehash).attempt).getD ∅
    let tables ← Action.get
    let sauthevents : HashMap ShortStateKey TypeStateKey := HashMap.collect (authTypes.filterMap
      (fun key => (tables.rooms.shortstatekeys key).map fun short => (short, key)))
    return HashMap.collect (fullState.iter.filterMap fun event =>
      (sauthevents.lookup event.shortstatekey).bind fun key =>
        ((tables.rooms.eventids event.shorteventid).bind tables.getPdu).map fun pdu => (key, pdu))

variable (pdu : PduBuilder)

def roomVersionFor (roomId : RoomId) : TimelineAction RoomVersionId := do
  match ← (getRoomVersion builder.contents roomId).attempt with
  | some roomVersionId => return roomVersionId
  | none =>
    if pdu.eventType = .roomCreate then
      Action.lift (.ofOption (.json (builder.contents.ruma.jsonError "RoomCreateEventContent" pdu.content))
        (builder.contents.roomCreateVersion pdu.content))
    else
      Action.lift (.fail (.inconsistentRoomState "non-create event for room of unknown version" roomId))

def unsignedFor (roomId : RoomId) : TimelineAction (List (String × Json)) :=
  match pdu.stateKey with
  | none => return pdu.unsigned
  | some stateKey => do
    match ← (roomStateGet roomId pdu.eventType stateKey).attempt with
    | none => return pdu.unsigned
    | some prevPdu =>
      let unsigned := BTreeMap.insertEntry "prev_content" prevPdu.content pdu.unsigned
      let unsigned := BTreeMap.insertEntry "prev_sender" (.string prevPdu.sender.asStr) unsigned
      return BTreeMap.insertEntry "replaces_state" (.string prevPdu.eventId.asStr) unsigned

def createEventFor (roomId : RoomId) (roomVersion : RoomVersion) :
    TimelineAction (Option Event) :=
  if roomVersion.roomCreateEventIdAsRoomId ∧ pdu.eventType ≠ .roomCreate then
    (roomStateGet roomId .roomCreate "").attempt
  else return none

def checkAuth (roomVersion : RoomVersion) (pdu : Event) (fetch : TypeStateKey → Option Event) :
    TimelineAction Unit := do
  let allowed ← Action.mapErr
    (fun error => .request .forbidden ("Auth check failed: " ++ builder.stateResDebug error))
    (Action.lift (StateRes.authCheck builder.contents.ruma roomVersion pdu none fetch))
  if allowed then return () else Action.lift (.fail (.request .forbidden "Event is not authorized."))

def roomIdOfCreateEventId (id : EventId) : Option RoomId :=
  match id.asStr.toList with
  | '$' :: opaqueId =>
    let text := "!" ++ String.ofList opaqueId
    if builder.validRoomId text then some ⟨text⟩ else none
  | _ => none

def deriveRoom (roomVersion : RoomVersion) (pdu : Event) (pduJson : CanonicalJsonObject) :
    TimelineAction (Event × CanonicalJsonObject) := do
  let roomId ← Action.lift (.ofOption
    (.request .unknown ("Create event " ++ pdu.eventId.asStr ++ " names no room ID"))
    (roomIdOfCreateEventId builder pdu.eventId))
  checkAuth builder roomVersion { pdu with roomId := roomId } (fun _ => none)
  let pduJson := if pduJson.containsKey "room_id" then pduJson
    else pduJson.insert "room_id" (.string roomId.asStr)
  return ({ pdu with roomId := roomId }, pduJson)

variable (sender : UserId)

def unsignedPdu (roomId : RoomId) (prevEvents : List EventId)
    (authEvents : StateMap Event) : Event where
  eventId := ⟨"$thiswillbefilledinlater"⟩
  roomId := roomId
  sender := sender
  originServerTs := pdu.timestamp.getD builder.nowMillis
  eventType := pdu.eventType
  content := pdu.content
  stateKey := pdu.stateKey
  prevEvents := prevEvents
  authEvents := (builder.authOrder.iterate authEvents).map fun entry => entry.2.eventId
  redacts := pdu.redacts

def signPdu (roomVersionId : RoomVersionId) (roomVersion : RoomVersion) (pdu : Event)
    (unsigned : List (String × Json)) (fetch : TypeStateKey → Option Event) :
    TimelineAction (Event × CanonicalJsonObject) :=
  if pdu.eventType = .roomCreate ∧ builder.createOmitsRoomId roomVersionId then do
    let (pduJson, id) ← Action.lift (builder.hashAndSign roomVersionId pdu unsigned)
    deriveRoom builder roomVersion { pdu with eventId := id } pduJson
  else do
    checkAuth builder roomVersion pdu fetch
    let (pduJson, id) ← Action.lift (builder.hashAndSign roomVersionId pdu unsigned)
    return ({ pdu with eventId := id }, pduJson)

def buildHashAndSignEvent (roomId : RoomId) :
    TimelineAction (Event × CanonicalJsonObject) := do
  let prevEvents := ((← Action.get).getForwardExtremities roomId).take maxPrevEvents
  let roomVersionId ← roomVersionFor builder pdu roomId
  let roomVersion ← Action.lift (.expect "room version is supported" (RoomVersion.new roomVersionId).toOption)
  let authEvents ← getAuthEvents builder roomId roomVersion pdu sender
  let createEvent ← createEventFor pdu roomId roomVersion
  let unsigned ← unsignedFor pdu roomId
  let (pdu, pduJson) ← signPdu builder roomVersionId roomVersion
    (unsignedPdu builder pdu sender roomId prevEvents authEvents) unsigned
    (fun key => if key.1 = .roomCreate ∧ createEvent.isSome then createEvent else authEvents.lookup key)
  let _ ← onRooms (getOrCreateShorteventid pdu.eventId)
  return (pdu, pduJson.insert "event_id" (.string pdu.eventId.asStr))

def checkBuiltAdmin (pdu : Event) (sender : UserId) : TimelineAction Unit := do
  let tables ← Action.get
  if builder.isAdminRoom tables pdu.roomId then Action.lift (builder.checkPduForAdminRoom tables pdu sender)
  else return ()

def checkBuiltRedaction (pdu : Event) : TimelineAction Unit :=
  if pdu.eventType = .roomRedaction then do
    let roomVersionId ← getRoomVersion builder.contents pdu.roomId
    match ← Action.lift (redactsOf builder.contents roomVersionId pdu) with
    | none => return ()
    | some redactId =>
      if ← userCanRedact builder.contents redactId pdu.sender pdu.roomId false then return ()
      else Action.lift (.fail (.request .forbidden "User cannot redact this event."))
  else return ()

def checkBuiltMember (pdu : Event) : TimelineAction Unit :=
  if pdu.eventType = .roomMember then do
    let (membership, authorisingUser) ←
      Action.lift (getContent builder.contents "RoomMemberEventContent" builder.roomMember pdu)
    if authorisingUser.isSome ∧ membership ≠ .join then
      Action.lift (.fail (.request .badJson "join_authorised_via_users_server is only for member joins"))
    else if authorisingUser.any (fun user => !builder.userIsLocal user) then
      Action.lift (.fail (.request .invalidParam "Authorising user does not belong to this homeserver"))
    else return ()
  else return ()

def appendBuiltPdu (pdu : Event) (pduJson : CanonicalJsonObject) (sender : UserId) : TimelineAction EventId := do
  checkBuiltAdmin builder pdu sender
  checkBuiltRedaction builder pdu
  checkBuiltMember builder pdu
  let statehashid ← onRooms (appendToState ⟨pdu.eventId, pdu.roomId, pdu.eventType, pdu.stateKey⟩)
  let pduId ← appendPdu builder.contents pdu pduJson [pdu.eventId]
  Action.modify fun tables => { tables with rooms := setRoomState pdu.roomId statehashid tables.rooms }
  let tables ← Action.get
  Action.lift (builder.sendPduServers tables pdu pduId)
  return pdu.eventId

def buildAndAppendPdu (roomId : RoomId) : TimelineAction EventId := do
  let (pdu, pduJson) ← buildHashAndSignEvent builder pdu sender roomId
  appendBuiltPdu builder pdu pduJson sender

def getOrCreateShortroomid (roomId : RoomId) : TimelineAction ShortRoomId := do
  match (← Action.get).shortroomids roomId with
  | some short => return short
  | none =>
    let short ← onRooms nextCount
    Action.modify fun tables =>
      { tables with shortroomids := Function.update tables.shortroomids roomId (some short) }
    return short

def buildAndAppendCreatePdu (placeholder : RoomId) :
    TimelineAction RoomId := do
  let (pdu, pduJson) ← buildHashAndSignEvent builder pdu sender placeholder
  if ((← Action.get).shortroomids pdu.roomId).isSome then
    Action.lift (.fail (.request .roomInUse ("Room " ++ pdu.roomId.asStr ++ " already exists.")))
  else
    let _ ← getOrCreateShortroomid pdu.roomId
    let _ ← appendBuiltPdu builder pdu pduJson sender
    return pdu.roomId

end Build

namespace Sample

open Phantom.Matrix.Sample (ruma alice)

def room : RoomId := ⟨"!room:hs"⟩

def contents : Contents where
  ruma := ruma
  canonicalError _ := "a non-object value"
  roomCreateVersion := Json.requiredField ["room_version"] "room_version"
    (fun | .string "11" => some .v11 | _ => none)
  roomRedactionRedacts _ := some none
  redact _ _ _ := .fail (.database "nothing is redacted")
  redactsOthers _ _ _ := false
  redactsOwn _ _ _ := false

def builder : Builder where
  contents := contents
  nowMillis := 0
  authOrder := StateRes.Sample.keyOrder
  stateResDebug _ := "Error"
  createOmitsRoomId _ := false
  validRoomId _ := true
  hashAndSign _ pdu unsigned := .ok (BTreeMap.insert "unsigned" (.object unsigned) .empty,
      ⟨"$" ++ pdu.eventType.toString ++ (pdu.stateKey.getD "")⟩)
  isAdminRoom _ _ := false
  checkPduForAdminRoom _ _ _ := .ok ()
  userIsLocal user := user = alice
  roomMember content := (ruma.roomMemberMembership content).map fun membership => (membership, none)
  sendPduServers _ _ _ := .ok ()

def stateBuilder (eventType : EventType) (stateKey : String) (content : List (String × Json)) : PduBuilder :=
  ⟨eventType, .object content, [], some stateKey, none, none⟩

def builds : List PduBuilder :=
  [stateBuilder .roomCreate "" [("room_version", .string "11")],
    stateBuilder .roomMember alice.asStr [("membership", .string "join")],
    stateBuilder .roomJoinRules "" [("join_rule", .string "public")]]

def createRoom : TimelineAction Unit := do
  let _ ← getOrCreateShortroomid room
  builds.foldlM (fun _ pdu => do
    let _ ← buildAndAppendPdu builder pdu alice room
    return ()) ()

def tables : Tables := (createRoom .empty).2

end Sample

end Phantom.Timeline
