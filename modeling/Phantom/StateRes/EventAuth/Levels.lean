import Phantom.StateRes.PowerLevels

namespace Phantom.StateRes

open Phantom.Lib Phantom.Matrix

section Sending

variable (ruma : Ruma)

def getSendLevel (eventType : EventType) (stateKey : Option String) (powerLevels : Option Event) : Int :=
  match powerLevels.bind (fun event => ruma.roomPowerLevels event.content) with
  | some content =>
    (content.events.get eventType).getD (if stateKey.isSome then content.stateDefault else content.eventsDefault)
  | none => if stateKey.isSome then 50 else 0

def startsWithAt (text : String) : Bool := text.toList.head? = some '@'

def canSendEvent (event : Event) (powerLevels : Option Event) (userLevel : UserPower) : Bool :=
  if userLevel < .level (getSendLevel ruma event.eventType event.stateKey powerLevels) then false
  else if event.stateKey.any startsWithAt ∧ event.stateKey ≠ some event.sender.asStr then false
  else true

end Sending

variable (userLevel : UserPower)

/-- `level(l) > user_level` on optional levels. -/
def levelTooBig (level : Option Int) : Bool :=
  some userLevel < level.map UserPower.level

def eventLevelAllowed (oldLevel newLevel : Option Int) : Bool :=
  if oldLevel.isSome ∧ newLevel.isSome ∧ oldLevel = newLevel then true
  else !(levelTooBig userLevel oldLevel || levelTooBig userLevel newLevel)

def userLevelAllowed (isSender : Bool) (oldLevel newLevel : Option Int) : Bool :=
  if oldLevel.isSome ∧ newLevel.isSome ∧ oldLevel = newLevel then true
  else if !isSender ∧ oldLevel.map UserPower.level = some userLevel then false
  else !(levelTooBig userLevel oldLevel || levelTooBig userLevel newLevel)

def defaultLevelAllowed (levels : Int × Int) : Bool :=
  if levels.1 = levels.2 then true
  else !(levelTooBig userLevel (some levels.1) || levelTooBig userLevel (some levels.2))

def defaultLevels (old new : PowerLevels) : List (Int × Int) :=
  [(old.usersDefault, new.usersDefault), (old.eventsDefault, new.eventsDefault),
    (old.stateDefault, new.stateDefault), (old.ban, new.ban), (old.redact, new.redact),
    (old.kick, new.kick), (old.invite, new.invite)]

/-- The loops of `check_power_levels`, whose every early exit is `Some(false)`. -/
def levelChangesAllowed (rv : RoomVersion) (sender : UserId) (userLevel : UserPower)
    (old new : PowerLevels) : Bool :=
  (old.users.keys ++ new.users.keys).all (fun user =>
    userLevelAllowed userLevel (user = sender) (old.users.get user) (new.users.get user)) &&
  (old.events.keys ++ new.events.keys).all (fun eventType =>
    eventLevelAllowed userLevel (old.events.get eventType) (new.events.get eventType)) &&
  (!rv.limitNotificationsPowerLevels ||
    defaultLevelAllowed userLevel (old.notificationsRoom, new.notificationsRoom)) &&
  (defaultLevels old new).all (defaultLevelAllowed userLevel)

section Checks

variable (ruma : Ruma)

def checkPowerLevels (rv : RoomVersion) (powerEvent : Event) (previousPowerEvent : Option Event)
    (userLevel : UserPower) (creators : List UserId) : Option Bool :=
  if powerEvent.stateKey ≠ some "" then none
  else do
    let userContent ← deserializePowerLevels ruma rv powerEvent.content
    if creators.any userContent.users.containsKey then return false
    else match previousPowerEvent with
      | none => return true
      | some current =>
        let currentContent ← deserializePowerLevels ruma rv current.content
        return levelChangesAllowed rv powerEvent.sender userLevel currentContent userContent

def checkRedaction (redactionEvent : Event) (userLevel : UserPower) (redactLevel : Int) : Bool :=
  if .level redactLevel ≤ userLevel then true
  else ruma.eventServerName redactionEvent.eventId = redactionEvent.redacts.bind ruma.eventServerName

end Checks

end Phantom.StateRes
