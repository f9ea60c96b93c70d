import Phantom.StateRes.EventAuth.Levels
import Phantom.StateRes.EventAuth.Membership

namespace Phantom.StateRes

open Phantom.Lib Phantom.Matrix

section AuthCheck

variable (ruma : Ruma) (rv : RoomVersion)

structure RoomCreateContentFields where
  roomVersion : Option Json
  creator : Option Json
  additionalCreators : Option Json

def roomCreateFields : List String := ["room_version", "creator", "additional_creators"]

def decodeRoomCreateContentFields (content : Json) : Option RoomCreateContentFields := do
  let roomVersion ← content.optionalField roomCreateFields "room_version" Json.raw
  let creator ← content.optionalField roomCreateFields "creator" Json.raw
  let additionalCreators ← content.optionalField roomCreateFields "additional_creators" Json.raw
  return { roomVersion := roomVersion, creator := creator, additionalCreators := additionalCreators }

def createRoomIdMatches (event : Event) : Bool :=
  if rv.roomCreateEventIdAsRoomId then roomIdDerivesFrom ruma event.roomId event
  else ruma.roomServerName event.roomId = some (ruma.userServerName event.sender)

def checkCreate (event : Event) : Outcome Error Bool :=
  if event.prevEvents ≠ [] then .ok false
  else if !createRoomIdMatches ruma rv event then .ok false
  else do
    let content ← parse ruma "RoomCreateContentFields" decodeRoomCreateContentFields event.content
    if content.roomVersion.any (fun version => !ruma.validRoomVersionId version) then return false
    else if rv.additionalRoomCreators ∧ content.additionalCreators.any
        (fun creators => (Json.decodeList ruma.decodeUserId creators).isNone) then return false
    else if !rv.useRoomCreateSender ∧ content.creator.isNone then return false
    else return true

variable (event roomCreateEvent : Event)

/-- Whether the event refers to the room's create event the way its room version asks. -/
def namesCreate : Bool :=
  if rv.roomCreateEventIdAsRoomId then
    roomIdDerivesFrom ruma event.roomId roomCreateEvent &&
      !event.authEvents.any fun id => id = roomCreateEvent.eventId
  else event.authEvents.any fun id => id = roomCreateEvent.eventId

def decodeFederate : Json → Option Bool :=
  Json.defaultField ["m.federate"] "m.federate" true Json.decodeBool

variable (powerLevelsEvent senderMemberEvent : Option Event) (fetchState : TypeStateKey → Option Event)

def checkMember
    : Outcome Error Bool :=
  match event.stateKey with
  | none => .ok false
  | some stateKey => do
    let content ← parse ruma "RoomMemberContentFields" decodeRoomMemberContentFields event.content
    if (content.membershipState ruma).isNone then return false
    else match ruma.userId stateKey with
      | .error error => .fail (.invalidPdu error)
      | .ok targetUser =>
        let userForJoinAuth := content.userForJoinAuth ruma
        let userForJoinAuthEvent := userForJoinAuth.bind fun user => fetchState (.roomMember, user.asStr)
        let thirdPartyInviteEvent := (content.thirdPartyToken ruma).bind
          (fun token => fetchState (.roomThirdPartyInvite, token))
        let userForJoinAuthMembership :=
          (userForJoinAuthEvent.bind fun member => getMembership ruma member.content).getD .leave
        validMembershipChange ruma rv targetUser (fetchState (.roomMember, targetUser.asStr))
          event.sender senderMemberEvent event thirdPartyInviteEvent powerLevelsEvent
          (fetchState (.roomJoinRules, "")) userForJoinAuth userForJoinAuthMembership
          roomCreateEvent (privilegedCreators ruma rv roomCreateEvent)

def isCreator (roomCreateEvent : Event) (sender : UserId) : Bool :=
  if rv.useRoomCreateSender then roomCreateEvent.sender = sender
  else ruma.roomCreateCreator roomCreateEvent.content = some (some sender)

def senderPowerLevel (roomCreateEvent : Event) (powerLevelsEvent : Option Event) (sender : UserId) :
    Outcome Error UserPower :=
  if sender ∈ privilegedCreators ruma rv roomCreateEvent then .ok .infinite
  else match powerLevelsEvent with
    | some event => do
      let content ← parse ruma "PowerLevelsContentFields" (deserializePowerLevelsContentFields ruma rv)
        event.content
      return .level ((content.getUserPower sender).getD content.usersDefault)
    | none => .ok (.level (if isCreator ruma rv roomCreateEvent sender then 100 else 0))

def levelOr (default : Int) (target : String) (decode : Json → Option Int) :
    Option Event → Outcome Error Int
  | some event => parse ruma target decode event.content
  | none => .ok default

def checkSender :
    Outcome Error Bool :=
  match senderMemberEvent with
  | none => .ok false
  | some memberEvent => do
    let content ← parse ruma "RoomMemberContentFields" decodeRoomMemberContentFields memberEvent.content
    let membership ← .expect "we should test before that this field exists" content.membership
    let membershipState ← parse ruma "MembershipState" ruma.membershipState membership
    if membershipState ≠ .join then return false
    else
      let power ← senderPowerLevel ruma rv roomCreateEvent powerLevelsEvent event.sender
      if event.eventType = .roomThirdPartyInvite then
        let invite ← levelOr ruma 0 "PowerLevelsContentInvite"
          (deserializePowerLevelsContentInvite ruma rv) powerLevelsEvent
        return !(decide (power < .level invite))
      else if !canSendEvent ruma event powerLevelsEvent power then return false
      else if event.eventType = .roomPowerLevels ∧ checkPowerLevels ruma rv event powerLevelsEvent power
          (privilegedCreators ruma rv roomCreateEvent) ≠ some true then return false
      else if rv.extraRedactionChecks ∧ event.eventType = .roomRedaction then
        let redact ← levelOr ruma 50 "PowerLevelsContentRedact"
          (deserializePowerLevelsContentRedact ruma rv) powerLevelsEvent
        return checkRedaction ruma event power redact
      else return true

/-- The checks of an event that is not a create event, once the create event is at hand. -/
def checkInRoom :
    Outcome Error Bool := do
  let federate ← parse ruma "RoomCreateContentFederate" decodeFederate roomCreateEvent.content
  if !federate ∧
      ruma.userServerName roomCreateEvent.sender ≠ ruma.userServerName event.sender then return false
  else if rv.specialCaseAliasesAuth ∧ event.eventType.toString = "m.room.aliases" then
    return event.stateKey = some (ruma.userServerName event.sender).asStr
  else if event.eventType = .roomMember then
    checkMember ruma rv event roomCreateEvent (fetchState (.roomPowerLevels, ""))
      (fetchState (.roomMember, event.sender.asStr)) fetchState
  else
    checkSender ruma rv event roomCreateEvent (fetchState (.roomPowerLevels, ""))
      (fetchState (.roomMember, event.sender.asStr))

def authCheck (event : Event) (_currentThirdPartyInvite : Option Event)
    (fetchState : TypeStateKey → Option Event) : Outcome Error Bool :=
  if event.eventType = .roomCreate then checkCreate ruma rv event
  else match fetchState (.roomCreate, "") with
    | none => .ok false
    | some roomCreateEvent =>
      if !namesCreate ruma rv event roomCreateEvent then .ok false
      else checkInRoom ruma rv event roomCreateEvent fetchState

end AuthCheck

end Phantom.StateRes
