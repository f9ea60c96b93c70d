import Phantom.StateRes.EventAuth.Selection

namespace Phantom.StateRes

open Phantom.Lib Phantom.Matrix

section ThirdPartyInvites

variable (ruma : Ruma)

def signedByAny (signed : Json) (publicKeys : List (List UInt8)) : Bool :=
  match ruma.canonicalObject signed with
  | none => false
  | some object =>
    match ruma.canonicalForSigning object, object.lookup "signatures" with
    | some canonical, some (.object byEntity) =>
      let keys := byEntity.flatMap (fun entity =>
        match entity.2 with
        | .object keys => keys
        | _ => [])
      let ed25519 := keys.filter fun key => key.1.toList.take 8 = "ed25519:".toList
      let signatures := ed25519.filterMap (fun key =>
        match key.2 with
        | .string signature => ruma.parseBase64 signature
        | _ => none)
      signatures.any fun signature =>
        publicKeys.any fun key => ruma.verifyEd25519 key signature canonical
    | _, _ => false

def verifyThirdPartyInvite (targetUser : Option UserId) (sender : UserId) (inviteSigned : Json)
    (currentThirdPartyInvite : Option Event) : Bool :=
  match ruma.signedContent inviteSigned, currentThirdPartyInvite with
  | some signed, some current =>
    if targetUser ≠ some signed.mxid then false
    else if current.stateKey ≠ some signed.token then false
    else if sender ≠ current.sender then false
    else match ruma.roomThirdPartyInvite current.content with
      | none => false
      | some keys =>
        signedByAny ruma inviteSigned ((keys.publicKeys.getD [] ++ [keys.publicKey]).filterMap ruma.decodePublicKey)
  | _, _ => false

end ThirdPartyInvites

section Parsing

variable (ruma : Ruma)

def getMembership : Json → Option MembershipState :=
  Json.requiredField ["membership"] "membership" ruma.membershipState

def getThirdPartyInvite : Json → Option (Option Json) :=
  Json.optionalField ["third_party_invite"] "third_party_invite" Json.raw

def membershipOf : Option Event → Outcome Error MembershipState
  | some event => parse ruma "GetMembership" (getMembership ruma) event.content
  | none => .ok .leave

def powerLevelsOf (event : Option Event) : Outcome Error PowerLevels :=
  parse ruma "RoomPowerLevelsEventContent" ruma.roomPowerLevels ((event.map Event.content).getD (.object []))

def joinRuleOf : Option Event → Outcome Error JoinRule
  | some event => parse ruma "RoomJoinRulesEventContent" ruma.roomJoinRule event.content
  | none => .ok .invite

end Parsing

/-- What `valid_membership_change` has read before it looks at the kind of change. -/
structure MembershipChange where
  rv : RoomVersion
  targetUser : UserId
  sender : UserId
  senderMembership : MembershipState
  targetMembership : MembershipState
  targetCurrentMembership : MembershipState
  powerLevels : PowerLevels
  creators : List UserId
  joinRule : JoinRule
  userForJoinAuthIsValid : Bool

namespace MembershipChange

variable (change : MembershipChange)

def senderIsJoined : Bool := change.senderMembership = .join

def senderPower : Option UserPower :=
  if change.sender ∈ change.creators then some .infinite
  else
    ((change.powerLevels.users.get change.sender).or
      (if change.senderIsJoined then some change.powerLevels.usersDefault else none)).map .level

def targetPower : Option UserPower :=
  if change.targetUser ∈ change.creators then some .infinite
  else
    ((change.powerLevels.users.get change.targetUser).or
      (if change.targetMembership = .join then some change.powerLevels.usersDefault else none)).map .level

def joinAllowed : Bool :=
  if change.sender ≠ change.targetUser then false
  else if change.targetCurrentMembership = .ban then false
  else if (change.joinRule = .invite ∨ change.rv.allowKnocking ∧ change.joinRule = .knock) ∧
      (change.targetCurrentMembership = .join ∨ change.targetCurrentMembership = .invite) then true
  else if change.rv.restrictedJoinRules ∧ change.joinRule = .restricted ∨
      change.rv.knockRestrictedJoinRule ∧ change.joinRule = .knockRestricted then
    if change.targetCurrentMembership = .invite ∨ change.targetCurrentMembership = .join then true
    else change.userForJoinAuthIsValid
  else change.joinRule = .publicJoin

def inviteAllowed (ruma : Ruma) (thirdPartyInvite : Option Json) (thirdPartyEvent : Option Event) : Bool :=
  match thirdPartyInvite.bind ruma.thirdPartyInviteSigned with
  | some signed =>
    if change.targetCurrentMembership = .ban then false
    else verifyThirdPartyInvite ruma (some change.targetUser) change.sender signed thirdPartyEvent
  | none =>
    if !change.senderIsJoined ∨ change.targetCurrentMembership = .join ∨
        change.targetCurrentMembership = .ban then false
    else (change.senderPower.filter fun power => .level change.powerLevels.invite ≤ power).isSome

def leaveAllowed : Bool :=
  if change.sender = change.targetUser then
    change.targetCurrentMembership = .join ∨ change.targetCurrentMembership = .invite ∨
      change.targetCurrentMembership = .knock
  else if !change.senderIsJoined ∨ change.targetCurrentMembership = .ban ∧
      (change.senderPower.filter fun power => power < .level change.powerLevels.ban).isSome then false
  else
    (change.senderPower.filter fun power => .level change.powerLevels.kick ≤ power).isSome ∧
      change.targetPower < change.senderPower

def banAllowed : Bool :=
  if !change.senderIsJoined then false
  else
    (change.senderPower.filter fun power => .level change.powerLevels.ban ≤ power).isSome ∧
      change.targetPower < change.senderPower

def knockAllowed : Bool :=
  if change.joinRule ≠ .knockRestricted ∧ change.joinRule ≠ .knock then false
  else if change.joinRule = .knockRestricted ∧ !change.rv.knockRestrictedJoinRule then false
  else if change.sender ≠ change.targetUser then false
  else if change.senderMembership = .ban ∨ change.senderMembership = .invite ∨
      change.senderMembership = .join then false
  else true

end MembershipChange

section Changes

variable (ruma : Ruma) (rv : RoomVersion) (powerLevelsEvent : Option Event)

/-- The power of a user who vouches for a join, and the level that inviting takes. -/
def joinAuthPower (creators : List UserId) (user : UserId) :
    Outcome Error (UserPower × UserPower) :=
  match powerLevelsEvent with
  | some event => do
    let invite ← parse ruma "PowerLevelsContentInvite" (deserializePowerLevelsContentInvite ruma rv)
      event.content
    let content ← parse ruma "PowerLevelsContentFields" (deserializePowerLevelsContentFields ruma rv)
      event.content
    let power :=
      if user ∈ creators then .infinite
      else .level ((content.getUserPower user).getD content.usersDefault)
    return (power, .level invite)
  | none => .ok (if user ∈ creators then .infinite else .level 0, .level 0)

def isUserForJoinAuthValid (creators : List UserId)
    (membership : MembershipState) : Option UserId → Outcome Error Bool
  | none => .ok false
  | some user => do
    let (authUserPower, inviteLevel) ← joinAuthPower ruma rv powerLevelsEvent creators user
    return membership = .join ∧ inviteLevel ≤ authUserPower

def isSolePrevEvent (event createRoom : Event) : Bool :=
  event.prevEvents = [createRoom.eventId]

def isCreatorJoin (sender targetUser : UserId) (createRoom : Event) : Outcome Error Bool :=
  if rv.useRoomCreateSender then
    .ok (createRoom.sender = sender ∧ createRoom.sender = targetUser)
  else do
    let content ← parse ruma "RoomCreateEventContent" ruma.roomCreateCreator createRoom.content
    let creator ← .ofOption (.serdeJson "missing field `creator`") content
    return creator = sender ∧ creator = targetUser

/-- The creator's join straight after the create event, which no other join rule restricts. -/
def isCreatorsFirstJoin (sender targetUser : UserId) (event createRoom : Event) : Outcome Error Bool :=
  if isSolePrevEvent event createRoom then isCreatorJoin ruma rv sender targetUser createRoom
  else .ok false

def validMembershipChange (targetUser : UserId) (targetUserMembershipEvent : Option Event)
    (sender : UserId) (senderMembershipEvent : Option Event) (currentEvent : Event)
    (currentThirdPartyInvite powerLevelsEvent joinRulesEvent : Option Event)
    (userForJoinAuth : Option UserId) (userForJoinAuthMembership : MembershipState)
    (createRoom : Event) (creators : List UserId) : Outcome Error Bool := do
  let targetMembership ← parse ruma "GetMembership" (getMembership ruma) currentEvent.content
  let thirdPartyInvite ← parse ruma "GetThirdPartyInvite" getThirdPartyInvite currentEvent.content
  let senderMembership ← membershipOf ruma senderMembershipEvent
  let targetCurrentMembership ← membershipOf ruma targetUserMembershipEvent
  let powerLevels ← powerLevelsOf ruma powerLevelsEvent
  let joinRule ← joinRuleOf ruma joinRulesEvent
  let userForJoinAuthIsValid ← isUserForJoinAuthValid ruma rv powerLevelsEvent creators
    userForJoinAuthMembership userForJoinAuth
  let change : MembershipChange := {
    rv := rv, targetUser := targetUser, sender := sender, senderMembership := senderMembership,
    targetMembership := targetMembership, targetCurrentMembership := targetCurrentMembership,
    powerLevels := powerLevels, creators := creators, joinRule := joinRule,
    userForJoinAuthIsValid := userForJoinAuthIsValid }
  match targetMembership with
  | .join =>
    let creatorJoin ← isCreatorsFirstJoin ruma rv sender targetUser currentEvent createRoom
    return creatorJoin || change.joinAllowed
  | .invite => return change.inviteAllowed ruma thirdPartyInvite currentThirdPartyInvite
  | .leave => return change.leaveAllowed
  | .ban => return change.banAllowed
  | .knock => return rv.allowKnocking && change.knockAllowed
  | .custom _ => return false

end Changes

end Phantom.StateRes
