import Phantom.Lib.Outcome
import Phantom.Matrix.Ruma

namespace Phantom.StateRes

open Phantom.Lib Phantom.Matrix

inductive Error where
  | serdeJson (message : String)
  | unsupported (message : String)
  | notFound (message : String)
  | invalidPdu (message : String)
deriving DecidableEq, Repr

inductive RoomVersionId where
  | v1 | v2 | v3 | v4 | v5 | v6 | v7 | v8 | v9 | v10 | v11 | v12
  | custom (name : String)
deriving DecidableEq, Repr

/-- The flags of a room version that event authorization and state resolution read. -/
structure RoomVersion where
  specialCaseAliasesAuth : Bool
  limitNotificationsPowerLevels : Bool
  extraRedactionChecks : Bool
  allowKnocking : Bool
  restrictedJoinRules : Bool
  knockRestrictedJoinRule : Bool
  integerPowerLevels : Bool
  useRoomCreateSender : Bool
  explicitlyPrivilegeRoomCreators : Bool
  additionalRoomCreators : Bool
  roomCreateEventIdAsRoomId : Bool
  stateResV21 : Bool
deriving DecidableEq, Repr

namespace RoomVersion

def V1 : RoomVersion where
  specialCaseAliasesAuth := true
  limitNotificationsPowerLevels := false
  extraRedactionChecks := true
  allowKnocking := false
  restrictedJoinRules := false
  knockRestrictedJoinRule := false
  integerPowerLevels := false
  useRoomCreateSender := false
  explicitlyPrivilegeRoomCreators := false
  additionalRoomCreators := false
  roomCreateEventIdAsRoomId := false
  stateResV21 := false

def V2 : RoomVersion := V1
def V3 : RoomVersion := { V2 with extraRedactionChecks := false }
def V4 : RoomVersion := V3
def V5 : RoomVersion := V4
def V6 : RoomVersion := { V5 with specialCaseAliasesAuth := false, limitNotificationsPowerLevels := true }
def V7 : RoomVersion := { V6 with allowKnocking := true }
def V8 : RoomVersion := { V7 with restrictedJoinRules := true }
def V9 : RoomVersion := V8
def V10 : RoomVersion := { V9 with knockRestrictedJoinRule := true, integerPowerLevels := true }
def V11 : RoomVersion := { V10 with useRoomCreateSender := true }
def V12 : RoomVersion :=
  { V11 with
    explicitlyPrivilegeRoomCreators := true
    additionalRoomCreators := true
    roomCreateEventIdAsRoomId := true
    stateResV21 := true }

def new : RoomVersionId → Outcome Error RoomVersion
  | .v1 => .ok V1
  | .v2 => .ok V2
  | .v3 => .ok V3
  | .v4 => .ok V4
  | .v5 => .ok V5
  | .v6 => .ok V6
  | .v7 => .ok V7
  | .v8 => .ok V8
  | .v9 => .ok V9
  | .v10 => .ok V10
  | .v11 => .ok V11
  | .v12 => .ok V12
  | .custom name => .fail (.unsupported ("found version `" ++ name ++ "`"))

theorem new_finishes (roomVersion : RoomVersionId) : (new roomVersion).Finishes := by
  cases roomVersion <;> exact nofun

end RoomVersion

/-- The create event a room ID names: its opaque part under a `$` sigil, unless it carries a server name. -/
def createEventIdOf (ruma : Ruma) (roomId : RoomId) : Option EventId :=
  if (ruma.roomServerName roomId).isSome then none
  else match roomId.asStr.toList with
    | '!' :: rest =>
      let text := "$" ++ String.ofList rest
      if ruma.validEventId text then some ⟨text⟩ else none
    | _ => none

def roomIdDerivesFrom (ruma : Ruma) (roomId : RoomId) (createEvent : Event) : Bool :=
  createEventIdOf ruma roomId = some createEvent.eventId

def isTypeAndKey (event : Event) (eventType : EventType) (stateKey : String) : Bool :=
  event.eventType = eventType ∧ event.stateKey = some stateKey

def isPowerEvent (ruma : Ruma) (event : Event) : Bool :=
  match event.eventType with
  | .roomPowerLevels | .roomJoinRules | .roomCreate => event.stateKey = some ""
  | .roomMember =>
    match ruma.roomMemberMembership event.content with
    | some .leave | some .ban => some event.sender.asStr ≠ event.stateKey
    | _ => false
  | _ => false

end Phantom.StateRes
