import Phantom.Matrix.Ruma

namespace Phantom.StateCache

open Phantom.Matrix

/-- The four kinds of rows. Each kind has a table by user and a table by room. -/
inductive Membership where
  | joined
  | invited
  | knocked
  | left
deriving DecidableEq, Repr

abbrev StrippedState := List String

/-- `userroomid_joined`, `userroomid_invitestate`, … and `roomuserid_joined`, `roomuserid_invitecount`, …:
    the rows of users who joined hold neither a state nor a count. -/
structure Tables where
  count : ℕ
  userroomid : Membership → UserId × RoomId → Option StrippedState
  roomuserid : Membership → RoomId × UserId → Option (Option ℕ)
  roomuseroncejoinedids : RoomId × UserId → Bool

def Tables.empty : Tables := ⟨0, fun _ _ => none, fun _ _ => none, fun _ => false⟩

structure Server where
  userIsLocal : UserId → Bool
  userIsIgnored : UserId → UserId → Bool
  forgetForcedUponLeave : Bool

structure Update where
  roomId : RoomId
  userId : UserId
  membership : MembershipState
  sender : UserId
  lastState : Option StrippedState
  isBanned : Bool
  isDisabled : Bool

section Rows

variable (userId : UserId) (roomId : RoomId) (membership : Membership)

def insertRows (state : StrippedState) (count : Option ℕ) (tables : Tables) : Tables :=
  { tables with
    userroomid := Function.update tables.userroomid membership
      (Function.update (tables.userroomid membership) (userId, roomId) (some state))
    roomuserid := Function.update tables.roomuserid membership
      (Function.update (tables.roomuserid membership) (roomId, userId) (some count)) }

def removeRows (tables : Tables) : Tables :=
  { tables with
    userroomid := Function.update tables.userroomid membership
      (Function.update (tables.userroomid membership) (userId, roomId) none)
    roomuserid := Function.update tables.roomuserid membership
      (Function.update (tables.roomuserid membership) (roomId, userId) none) }

def clearOtherMemberships (keep : Membership) (tables : Tables) : Tables :=
  [Membership.joined, .invited, .left, .knocked].foldl
    (fun tables membership => if keep ≠ membership then removeRows userId roomId membership tables else tables) tables

variable (tables : Tables)

def nextCount : Tables := { tables with count := tables.count + 1 }

def markAsJoined : Tables :=
  clearOtherMemberships userId roomId .joined (insertRows userId roomId .joined [] none tables)

def markCounted (state : StrippedState) (tables : Tables) : Tables :=
  clearOtherMemberships userId roomId membership
    (insertRows userId roomId membership state (some (tables.count + 1)) (nextCount tables))

def markAsLeft : Tables := markCounted userId roomId .left [] tables

def markAsKnocked (knockedState : Option StrippedState) (tables : Tables) : Tables :=
  markCounted userId roomId .knocked (knockedState.getD []) tables

def markAsInvited (lastState : Option StrippedState) (tables : Tables) : Tables :=
  markCounted userId roomId .invited (lastState.getD []) tables

def markAsOnceJoined : Tables :=
  { tables with roomuseroncejoinedids := Function.update tables.roomuseroncejoinedids (roomId, userId) true }

def onceJoined : Bool := tables.roomuseroncejoinedids (roomId, userId)

def forget : Tables := removeRows userId roomId .left tables

def isListed (tables : Tables) : Bool := (tables.userroomid membership (userId, roomId)).isSome

end Rows

variable (server : Server)

def Server.forgets (update : Update) : Bool :=
  server.userIsLocal update.userId && (server.forgetForcedUponLeave || update.isBanned || update.isDisabled)

def updateMembership (update : Update) (tables : Tables) : Tables :=
  match update.membership with
  | .join =>
    let tables :=
      if onceJoined update.userId update.roomId tables then tables
      else markAsOnceJoined update.userId update.roomId tables
    markAsJoined update.userId update.roomId tables
  | .invite =>
    if server.userIsIgnored update.sender update.userId then tables
    else markAsInvited update.userId update.roomId update.lastState tables
  | .leave | .ban =>
    let tables := markAsLeft update.userId update.roomId tables
    if server.forgets update then forget update.userId update.roomId tables else tables
  | .knock => markAsKnocked update.userId update.roomId update.lastState tables
  | .custom _ => tables

/-- What the five answers stand for: joined, left, knocked, invited, and joined before. -/
def membershipOf : Bool → Bool → Bool → Bool → Bool → Option MembershipState
  | true, _, _, _, _ => some .join
  | _, true, _, _, _ => some .leave
  | _, _, true, _, _ => some .knock
  | _, _, _, true, _ => some .invite
  | false, false, false, false, true => some .ban
  | _, _, _, _, _ => none

variable (userId : UserId) (roomId : RoomId)

def userMembership (tables : Tables) : Option MembershipState :=
  membershipOf (isListed userId roomId .joined tables) (isListed userId roomId .left tables)
    (isListed userId roomId .knocked tables) (isListed userId roomId .invited tables) (onceJoined userId roomId tables)

inductive Label where
  | update (call : Update)
  | forget (roomId : RoomId) (userId : UserId)

def step (tables : Tables) : Label → Tables
  | .update call => updateMembership server call tables
  | .forget roomId userId => forget userId roomId tables

def Server.after (labels : List Label) : Tables := labels.foldl (step server) .empty

def Label.tells : Label → Option (Option MembershipState)
  | .update call => if call.userId = userId ∧ call.roomId = roomId then some (some call.membership) else none
  | .forget room user => if user = userId ∧ room = roomId then some none else none

def lastUpdate (labels : List Label) : Option MembershipState :=
  labels.foldl (fun last label => (label.tells userId roomId).getD last) none

/-- A user is in one table by user at most for each room, and the tables by room list the same pairs. -/
structure Consistent (tables : Tables) : Prop where
  atMostOne : ∀ userId roomId membership other, (tables.userroomid membership (userId, roomId)).isSome →
    (tables.userroomid other (userId, roomId)).isSome → membership = other
  samePairs : ∀ membership userId roomId, (tables.userroomid membership (userId, roomId)).isSome =
    (tables.roomuserid membership (roomId, userId)).isSome

end Phantom.StateCache
