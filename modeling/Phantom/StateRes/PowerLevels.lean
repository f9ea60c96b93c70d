import Mathlib.Order.WithBot
import Phantom.StateRes.RoomVersion

namespace Phantom.StateRes

open Phantom.Lib Phantom.Matrix

/-- Since room version 12 the room's creators hold `infinite`, which outranks every level. -/
inductive UserPower where
  | level (value : Int)
  | infinite
deriving Repr

namespace UserPower

def toWithTop : UserPower → WithTop Int
  | level value => value
  | infinite => ⊤

theorem toWithTop_injective : Function.Injective toWithTop := by
  intro left right same
  cases left <;> cases right <;> simp_all [toWithTop]

instance : LinearOrder UserPower := LinearOrder.lift' toWithTop toWithTop_injective

@[simp] theorem level_le_level {left right : Int} : level left ≤ level right ↔ left ≤ right := WithTop.coe_le_coe

@[simp] theorem level_lt_level {left right : Int} : level left < level right ↔ left < right := WithTop.coe_lt_coe

variable (power : UserPower)

@[simp] theorem le_infinite : power ≤ infinite := by
  change power.toWithTop ≤ ⊤
  exact le_top

@[simp] theorem level_lt_infinite (value : Int) : level value < infinite := WithTop.coe_lt_top value

@[simp] theorem not_infinite_lt : ¬ infinite < power := not_lt.mpr (le_infinite power)

/-- Options compare as in the source: `None` is below every `Some`. -/
instance : DecidableRel ((· < ·) : Option UserPower → Option UserPower → Prop) :=
  inferInstanceAs (DecidableRel (Option.lt (· < ·)))

end UserPower

section Deserialisers

variable (ruma : Ruma)

def decodeUserLevels : Json → Option (BTreeMap UserId Int) :=
  Json.decodeMap (fun text => (ruma.userId text).toOption) ruma.int

def decodeEventLevels : Json → Option (BTreeMap EventType Int) :=
  Json.decodeMap (fun text => some (EventType.ofString text)) ruma.int

def decodeIntNotifications : Json → Option Int :=
  Json.defaultField ["room"] "room" defaultPowerLevel ruma.int

def deserializeIntegerPowerLevels : Json → Option PowerLevels :=
  PowerLevels.decode ruma.int (decodeEventLevels ruma) (decodeUserLevels ruma) (decodeIntNotifications ruma)

variable (rv : RoomVersion)

def deserializePowerLevels (content : Json) : Option PowerLevels :=
  if rv.integerPowerLevels then deserializeIntegerPowerLevels ruma content
  else ruma.roomPowerLevels content

structure PowerLevelsContentFields where
  users : BTreeMap UserId Int
  usersDefault : Int

def PowerLevelsContentFields.getUserPower (fields : PowerLevelsContentFields) (user : UserId) :
    Option Int :=
  ((binarySearchBy (fun item => cmp item.1 user) fields.users.entries).bind
    (fun index => fields.users.entries[index]?)).map Prod.snd

def deserializeContentFields (levels : Json → Option (BTreeMap UserId Int))
    (level : Json → Option Int) (content : Json) : Option PowerLevelsContentFields := do
  let users ← content.defaultField ["users", "users_default"] "users" .empty levels
  let usersDefault ← content.defaultField ["users", "users_default"] "users_default" 0 level
  return { users := users, usersDefault := usersDefault }

def deserializeLegacyPowerLevelsContentFields : Json → Option PowerLevelsContentFields :=
  deserializeContentFields ruma.deserializeV1UserLevels ruma.deserializeV1PowerLevel

def deserializePowerLevelsContentFields : Json → Option PowerLevelsContentFields :=
  if rv.integerPowerLevels then deserializeContentFields (decodeUserLevels ruma) ruma.int
  else deserializeLegacyPowerLevelsContentFields ruma

def deserializeSingleLevel (name : String) (default : Int) (rv : RoomVersion) : Json → Option Int :=
  Json.defaultField [name] name default (if rv.integerPowerLevels then ruma.int else ruma.deserializeV1PowerLevel)

def deserializePowerLevelsContentInvite : RoomVersion → Json → Option Int :=
  deserializeSingleLevel ruma "invite" 0

def deserializePowerLevelsContentRedact : RoomVersion → Json → Option Int :=
  deserializeSingleLevel ruma "redact" defaultPowerLevel

def decodeAdditionalCreators : Json → Option (List UserId) :=
  Json.defaultField ["additional_creators"] "additional_creators" [] (Json.decodeList ruma.decodeUserId)

/-- The users a create event names as creators, where the room version privileges them. -/
def privilegedCreators (createEvent : Event) : List UserId :=
  if !rv.explicitlyPrivilegeRoomCreators then []
  else if rv.additionalRoomCreators then
    createEvent.sender :: (decodeAdditionalCreators ruma createEvent.content).getD []
  else [createEvent.sender]

end Deserialisers

theorem PowerLevelsContentFields.getUserPower_eq (fields : PowerLevelsContentFields) (user : UserId) :
    fields.getUserPower user = fields.users.get user := BTreeMap.binarySearchBy_get fields.users user

end Phantom.StateRes
