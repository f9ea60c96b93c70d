import Mathlib.Data.String.Basic
import Phantom.Lib.Json

namespace Phantom.Matrix

open Phantom.Lib

structure EventId where
  asStr : String
deriving Repr

structure UserId where
  asStr : String
deriving Repr

structure RoomId where
  asStr : String
deriving DecidableEq, Repr

structure ServerName where
  asStr : String
deriving DecidableEq, Repr

/-- Identifiers are ordered as the strings they wrap. -/
instance : LinearOrder EventId :=
  LinearOrder.lift' EventId.asStr fun left right same => by cases left; cases right; cases same; rfl

instance : LinearOrder UserId :=
  LinearOrder.lift' UserId.asStr fun left right same => by cases left; cases right; cases same; rfl

instance eventId_lawfulBEq : LawfulBEq EventId := inferInstance

instance userId_lawfulBEq : LawfulBEq UserId := inferInstance

def knownEventTypes : List String :=
  ["m.room.create", "m.room.member", "m.room.power_levels", "m.room.join_rules",
    "m.room.third_party_invite", "m.room.redaction"]

/-- The event types the authorization rules tell apart. `StateEventType` and
    `TimelineEventType` are converted into each other through their text, so both are this type. -/
inductive EventType where
  | roomCreate
  | roomMember
  | roomPowerLevels
  | roomJoinRules
  | roomThirdPartyInvite
  | roomRedaction
  | other (name : String) (custom : name ∉ knownEventTypes)

namespace EventType

def toString : EventType → String
  | roomCreate => "m.room.create"
  | roomMember => "m.room.member"
  | roomPowerLevels => "m.room.power_levels"
  | roomJoinRules => "m.room.join_rules"
  | roomThirdPartyInvite => "m.room.third_party_invite"
  | roomRedaction => "m.room.redaction"
  | other name _ => name

def ofString (name : String) : EventType :=
  if name = "m.room.create" then roomCreate
  else if name = "m.room.member" then roomMember
  else if name = "m.room.power_levels" then roomPowerLevels
  else if name = "m.room.join_rules" then roomJoinRules
  else if name = "m.room.third_party_invite" then roomThirdPartyInvite
  else if name = "m.room.redaction" then roomRedaction
  else if custom : name ∉ knownEventTypes then other name custom
  else roomCreate

theorem ofString_toString (kind : EventType) : ofString kind.toString = kind := by
  cases kind with
  | other name custom =>
    grind [knownEventTypes, ofString, toString]
  | _ => rfl

theorem toString_injective : Function.Injective toString := Function.LeftInverse.injective ofString_toString

instance : LinearOrder EventType := LinearOrder.lift' toString toString_injective

end EventType

/-- What the `Event` trait gives access to. -/
structure Event where
  eventId : EventId
  roomId : RoomId
  sender : UserId
  originServerTs : Nat
  eventType : EventType
  content : Json
  stateKey : Option String
  prevEvents : List EventId
  authEvents : List EventId
  redacts : Option EventId

abbrev TypeStateKey := EventType × String

end Phantom.Matrix
