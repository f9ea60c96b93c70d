import Phantom.Matrix.Event

namespace Phantom.Matrix

open Phantom.Lib

inductive MembershipState where
  | ban
  | invite
  | join
  | knock
  | leave
  | custom (name : String)
deriving DecidableEq, Repr

/-- The allow rules of the restricted variants are never read. -/
inductive JoinRule where
  | invite
  | knock
  | privateJoin
  | publicJoin
  | restricted
  | knockRestricted
  | custom (name : String)
deriving DecidableEq, Repr

structure PowerLevels where
  ban : Int
  events : BTreeMap EventType Int
  eventsDefault : Int
  invite : Int
  kick : Int
  redact : Int
  stateDefault : Int
  users : BTreeMap UserId Int
  usersDefault : Int
  notificationsRoom : Int
deriving DecidableEq

def defaultPowerLevel : Int := 50

def powerLevelsFields : List String :=
  ["ban", "events", "events_default", "invite", "kick", "redact", "state_default", "users",
    "users_default", "notifications"]

def PowerLevels.decode (level : Json → Option Int) (eventLevels : Json → Option (BTreeMap EventType Int))
    (userLevels : Json → Option (BTreeMap UserId Int)) (notifications : Json → Option Int)
    (content : Json) : Option PowerLevels := do
  let ban ← content.defaultField powerLevelsFields "ban" defaultPowerLevel level
  let events ← content.defaultField powerLevelsFields "events" .empty eventLevels
  let eventsDefault ← content.defaultField powerLevelsFields "events_default" 0 level
  let invite ← content.defaultField powerLevelsFields "invite" 0 level
  let kick ← content.defaultField powerLevelsFields "kick" defaultPowerLevel level
  let redact ← content.defaultField powerLevelsFields "redact" defaultPowerLevel level
  let stateDefault ← content.defaultField powerLevelsFields "state_default" defaultPowerLevel level
  let users ← content.defaultField powerLevelsFields "users" .empty userLevels
  let usersDefault ← content.defaultField powerLevelsFields "users_default" 0 level
  let notificationsRoom ←
    content.defaultField powerLevelsFields "notifications" defaultPowerLevel notifications
  return {
    ban := ban, events := events, eventsDefault := eventsDefault, invite := invite, kick := kick,
    redact := redact, stateDefault := stateDefault, users := users, usersDefault := usersDefault,
    notificationsRoom := notificationsRoom }

structure SignedContent where
  mxid : UserId
  token : String

structure ThirdPartyInviteKeys where
  publicKey : String
  publicKeys : Option (List String)

/-- What the server takes from the `ruma` and `serde_json` crates: identifier grammars, the
    deserialisers of event contents and the text of their errors, and signature checking. -/
structure Ruma where
  jsonError : String → Json → String
  userIdError : String → Option String
  userServerName : UserId → ServerName
  roomServerName : RoomId → Option ServerName
  validEventId : String → Bool
  eventServerName : EventId → Option ServerName
  int : Json → Option Int
  deserializeV1PowerLevel : Json → Option Int
  deserializeV1UserLevels : Json → Option (BTreeMap UserId Int)
  membershipState : Json → Option MembershipState
  validRoomVersionId : Json → Bool
  roomMemberMembership : Json → Option MembershipState
  roomCreateCreator : Json → Option (Option UserId)
  roomPowerLevels : Json → Option PowerLevels
  roomJoinRule : Json → Option JoinRule
  thirdPartyInviteSigned : Json → Option Json
  signedContent : Json → Option SignedContent
  roomThirdPartyInvite : Json → Option ThirdPartyInviteKeys
  decodePublicKey : String → Option (List UInt8)
  canonicalObject : Json → Option (List (String × Json))
  canonicalForSigning : List (String × Json) → Option String
  parseBase64 : String → Option (List UInt8)
  verifyEd25519 : List UInt8 → List UInt8 → String → Bool

namespace Ruma

/-- `UserId::try_from`: the string itself when it is in the grammar. -/
def userId (ruma : Ruma) (text : String) : Except String UserId :=
  match ruma.userIdError text with
  | none => .ok ⟨text⟩
  | some error => .error error

def decodeUserId (ruma : Ruma) : Json → Option UserId
  | .string text => (ruma.userId text).toOption
  | _ => none

theorem userId_asStr {ruma : Ruma} {text : String} {user : UserId}
    (parsed : ruma.userId text = .ok user) : user.asStr = text := by
  grind [userId]

end Ruma

namespace Sample

def afterColon (text : String) : Option String :=
  match text.toList.dropWhile (· ≠ ':') with
  | [] => none
  | _ :: rest => some (String.ofList rest)

def level : Json → Option Int
  | .number mantissa 0 => if mantissa.natAbs < 2 ^ 53 then some mantissa else none
  | _ => none

def userIdError (text : String) : Option String :=
  if text.toList.head? = some '@' ∧ (afterColon text).isSome then none else some "invalid user ID"

def decodeUser : Json → Option UserId
  | .string text => if (userIdError text).isNone then some ⟨text⟩ else none
  | _ => none

def decodeText : Json → Option String
  | .string text => some text
  | _ => none

def userLevels : Json → Option (BTreeMap UserId Int) :=
  Json.decodeMap (fun text => if (userIdError text).isNone then some ⟨text⟩ else none) level

def membership : Json → Option MembershipState
  | .string "ban" => some .ban
  | .string "invite" => some .invite
  | .string "join" => some .join
  | .string "knock" => some .knock
  | .string "leave" => some .leave
  | .string name => some (.custom name)
  | _ => none

def joinRule : Json → Option JoinRule
  | .string "invite" => some .invite
  | .string "knock" => some .knock
  | .string "private" => some .privateJoin
  | .string "public" => some .publicJoin
  | .string "restricted" => some .restricted
  | .string "knock_restricted" => some .knockRestricted
  | .string name => some (.custom name)
  | _ => none

/-- An instance with the documented formats in their simplest form: levels are integers,
    and no third-party invite carries a valid signature. -/
def ruma : Ruma where
  jsonError target content :=
    match content with
    | .object ((name, _) :: _) => "invalid " ++ target ++ " at " ++ name
    | _ => "invalid " ++ target
  userIdError := userIdError
  userServerName user := ⟨(afterColon user.asStr).getD ""⟩
  roomServerName roomId := (afterColon roomId.asStr).map ServerName.mk
  validEventId text := text.toList.head? = some '$'
  eventServerName eventId := (afterColon eventId.asStr).map ServerName.mk
  int := level
  deserializeV1PowerLevel := level
  deserializeV1UserLevels := userLevels
  membershipState := membership
  validRoomVersionId
    | .string _ => true
    | _ => false
  roomMemberMembership := Json.requiredField ["membership"] "membership" membership
  roomCreateCreator := Json.optionalField ["creator"] "creator" decodeUser
  roomPowerLevels := PowerLevels.decode level
    (Json.decodeMap (fun text => some (EventType.ofString text)) level) userLevels
    (Json.defaultField ["room"] "room" defaultPowerLevel level)
  roomJoinRule := Json.requiredField ["join_rule"] "join_rule" joinRule
  thirdPartyInviteSigned := Json.requiredField ["signed"] "signed" Json.raw
  signedContent content := do
    let mxid ← content.requiredField ["mxid", "token"] "mxid" decodeUser
    let token ← content.requiredField ["mxid", "token"] "token" decodeText
    return { mxid := mxid, token := token }
  roomThirdPartyInvite _ := none
  decodePublicKey _ := none
  canonicalObject
    | .object members => some members
    | _ => none
  canonicalForSigning _ := none
  parseBase64 _ := none
  verifyEd25519 _ _ _ := false

def alice : UserId := ⟨"@alice:hs"⟩
def bob : UserId := ⟨"@bob:hs"⟩

def event (eventId : String) (sender : UserId) (eventType : EventType) (stateKey : Option String)
    (content : List (String × Json)) (prevEvents authEvents : List String) : Event where
  eventId := ⟨eventId⟩
  roomId := ⟨"!c"⟩
  sender := sender
  originServerTs := 0
  eventType := eventType
  content := .object content
  stateKey := stateKey
  prevEvents := prevEvents.map EventId.mk
  authEvents := authEvents.map EventId.mk
  redacts := none

def create : Event := event "$c" alice .roomCreate (some "") [] [] []

def member (eventId : String) (sender target : UserId) (membership : String)
    (prevEvents authEvents : List String) : Event :=
  event eventId sender .roomMember (some target.asStr) [("membership", .string membership)]
    prevEvents authEvents

def stateOf (events : List Event) (key : TypeStateKey) : Option Event :=
  events.find? fun event => event.eventType = key.1 ∧ event.stateKey = some key.2

end Sample

end Phantom.Matrix
