import Phantom.StateRes.PowerLevels

namespace Phantom.StateRes

open Phantom.Lib Phantom.Matrix

/-- `from_json_str::<target>(content)` under `?`. -/
def parse {α : Type} (ruma : Ruma) (target : String) (decode : Json → Option α) (content : Json) :
    Outcome Error α :=
  .ofOption (.serdeJson (ruma.jsonError target content)) (decode content)

structure RoomMemberContentFields where
  membership : Option Json
  thirdPartyInvite : Option Json
  joinAuthorisedViaUsersServer : Option Json

def roomMemberFields : List String :=
  ["membership", "third_party_invite", "join_authorised_via_users_server"]

def decodeRoomMemberContentFields (content : Json) : Option RoomMemberContentFields := do
  let membership ← content.optionalField roomMemberFields "membership" Json.raw
  let thirdPartyInvite ← content.optionalField roomMemberFields "third_party_invite" Json.raw
  let joinAuthorised ←
    content.optionalField roomMemberFields "join_authorised_via_users_server" Json.raw
  return {
    membership := membership, thirdPartyInvite := thirdPartyInvite,
    joinAuthorisedViaUsersServer := joinAuthorised }

section Fields

variable (ruma : Ruma) (fields : RoomMemberContentFields)

def RoomMemberContentFields.membershipState : Option MembershipState :=
  fields.membership.bind ruma.membershipState

def RoomMemberContentFields.userForJoinAuth : Option UserId :=
  fields.joinAuthorisedViaUsersServer.bind ruma.decodeUserId

def RoomMemberContentFields.thirdPartyToken : Option String :=
  ((fields.thirdPartyInvite.bind ruma.thirdPartyInviteSigned).bind ruma.signedContent).map
    SignedContent.token

end Fields

def pushNew (key : TypeStateKey) (keys : List TypeStateKey) : List TypeStateKey :=
  if key ∈ keys then keys else keys ++ [key]

def baseAuthTypes (rv : RoomVersion) (sender : UserId) : List TypeStateKey :=
  let authTypes := [(.roomPowerLevels, ""), (.roomMember, sender.asStr)]
  if rv.roomCreateEventIdAsRoomId then authTypes else authTypes ++ [(.roomCreate, "")]

def memberAuthTypes (ruma : Ruma) (fields : RoomMemberContentFields) (membership : MembershipState)
    (stateKey : String) (authTypes : List TypeStateKey) : List TypeStateKey :=
  let authTypes :=
    if membership ∈ [.join, .invite, .knock] then
      let authTypes := pushNew (.roomJoinRules, "") authTypes
      match fields.userForJoinAuth ruma with
      | some user => pushNew (.roomMember, user.asStr) authTypes
      | none => authTypes
    else authTypes
  let authTypes := pushNew (.roomMember, stateKey) authTypes
  if membership = .invite then
    match fields.thirdPartyToken ruma with
    | some token => pushNew (.roomThirdPartyInvite, token) authTypes
    | none => authTypes
  else authTypes

def authTypesForEvent (ruma : Ruma) (rv : RoomVersion) (kind : EventType) (sender : UserId)
    (stateKey : Option String) (content : Json) : Outcome Error (List TypeStateKey) :=
  if kind = .roomCreate then .ok []
  else
    let authTypes := baseAuthTypes rv sender
    match stateKey with
    | some stateKey =>
      if kind = .roomMember then do
        let fields ← parse ruma "RoomMemberContentFields" decodeRoomMemberContentFields content
        match fields.membershipState ruma with
        | some membership => return memberAuthTypes ruma fields membership stateKey authTypes
        | none => return authTypes
      else .ok authTypes
    | none => .ok authTypes

@[simp] theorem mem_pushNew {key added : TypeStateKey} {keys : List TypeStateKey} :
    key ∈ pushNew added keys ↔ key = added ∨ key ∈ keys := by
  grind [pushNew]

end Phantom.StateRes
