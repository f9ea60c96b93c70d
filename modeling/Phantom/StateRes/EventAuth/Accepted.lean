import Phantom.StateRes.EventAuth.Check

namespace Phantom.StateRes

open Phantom.Lib Phantom.Matrix

theorem parse_eq_ok {α : Type} {ruma : Ruma} {target : String} {decode : Json → Option α}
    {content : Json} {value : α} : parse ruma target decode content = .ok value ↔ decode content = some value :=
  Outcome.ofOption_eq_ok

variable {ruma : Ruma} {rv : RoomVersion} {event : Event} {thirdParty : Option Event}
  {state s : TypeStateKey → Option Event}

structure MemberChecked (ruma : Ruma) (rv : RoomVersion) (event : Event)
    (state : TypeStateKey → Option Event) (roomCreate : Event) (target : UserId)
    (change : MembershipChange) : Prop where
  create : state (.roomCreate, "") = some roomCreate
  stateKey : event.stateKey = some target.asStr
  version : change.rv = rv
  targetUser : change.targetUser = target
  sender : change.sender = event.sender
  membership : getMembership ruma event.content = some change.targetMembership
  senderMembership : membershipOf ruma (state (.roomMember, event.sender.asStr)) = .ok change.senderMembership
  currentMembership : membershipOf ruma (state (.roomMember, target.asStr)) = .ok change.targetCurrentMembership
  powerLevels : powerLevelsOf ruma (state (.roomPowerLevels, "")) = .ok change.powerLevels
  creators : change.creators = privilegedCreators ruma rv roomCreate

def MembershipChange.Allowed (ruma : Ruma) (event roomCreate : Event) (change : MembershipChange) : Prop :=
  match change.targetMembership with
  | .join => change.joinAllowed = true ∨ (event.prevEvents = [roomCreate.eventId] ∧
      isCreatorJoin ruma change.rv change.sender change.targetUser roomCreate = .ok true)
  | .invite => ∃ invite thirdParty, change.inviteAllowed ruma invite thirdParty = true
  | .leave => change.leaveAllowed = true
  | .ban => change.banAllowed = true
  | .knock => change.knockAllowed = true
  | .custom _ => False

theorem authCheck_not_create (kind : event.eventType ≠ .roomCreate)
    (accepted : authCheck ruma rv event thirdParty s = .ok true) :
    ∃ roomCreate, s (.roomCreate, "") = some roomCreate ∧ namesCreate ruma rv event roomCreate = true ∧
      checkInRoom ruma rv event roomCreate s = .ok true := by
  grind [authCheck]

variable {roomCreate : Event}

theorem checkInRoom_cases (accepted : checkInRoom ruma rv event roomCreate s = .ok true)
    (notAliases : event.eventType = .roomMember ∨ event.eventType = .roomPowerLevels) :
    (event.eventType = .roomMember ∧ checkMember ruma rv event roomCreate (s (.roomPowerLevels, ""))
      (s (.roomMember, event.sender.asStr)) s = .ok true) ∨
    (event.eventType ≠ .roomMember ∧
      checkSender ruma rv event roomCreate (s (.roomPowerLevels, ""))
        (s (.roomMember, event.sender.asStr)) = .ok true) := by
  obtain ⟨federate, _, accepted⟩ := Outcome.bind_eq_ok.mp accepted
  have named : event.eventType.toString ≠ "m.room.aliases" := by
    rcases notAliases with kind | kind <;> rw [kind] <;> decide
  split at accepted
  · cases accepted
  · grind

theorem validMembershipChange_accepted {target sender : UserId}
    {targetEvent senderEvent inviteEvent levelsEvent rulesEvent : Option Event} {joinAuth : Option UserId}
    {joinAuthMembership : MembershipState} {creators : List UserId}
    (accepted : validMembershipChange ruma rv target targetEvent sender senderEvent event inviteEvent
      levelsEvent rulesEvent joinAuth joinAuthMembership roomCreate creators = .ok true) :
    ∃ change : MembershipChange, change.rv = rv ∧ change.targetUser = target ∧
      change.sender = sender ∧ change.creators = creators ∧
      getMembership ruma event.content = some change.targetMembership ∧
      membershipOf ruma senderEvent = .ok change.senderMembership ∧
      membershipOf ruma targetEvent = .ok change.targetCurrentMembership ∧
      powerLevelsOf ruma levelsEvent = .ok change.powerLevels ∧ change.Allowed ruma event roomCreate := by
  obtain ⟨membership, read, accepted⟩ := Outcome.bind_eq_ok.mp accepted
  obtain ⟨invite, _, accepted⟩ := Outcome.bind_eq_ok.mp accepted
  obtain ⟨senderMembership, senderRead, accepted⟩ := Outcome.bind_eq_ok.mp accepted
  obtain ⟨current, currentRead, accepted⟩ := Outcome.bind_eq_ok.mp accepted
  obtain ⟨levels, levelsRead, accepted⟩ := Outcome.bind_eq_ok.mp accepted
  obtain ⟨joinRule, _, accepted⟩ := Outcome.bind_eq_ok.mp accepted
  obtain ⟨joinAuthIsValid, _, accepted⟩ := Outcome.bind_eq_ok.mp accepted
  rw [parse_eq_ok] at read
  refine ⟨{
    rv := rv, targetUser := target, sender := sender, senderMembership := senderMembership,
    targetMembership := membership, targetCurrentMembership := current, powerLevels := levels,
    creators := creators, joinRule := joinRule, userForJoinAuthIsValid := joinAuthIsValid },
    rfl, rfl, rfl, rfl, read, senderRead, currentRead, levelsRead, ?_⟩
  unfold MembershipChange.Allowed
  cases membership with
  | join =>
    obtain ⟨creatorJoin, chosen, accepted⟩ := Outcome.bind_eq_ok.mp accepted
    have either := Except.ok.inj accepted
    grind [isCreatorsFirstJoin, isSolePrevEvent]
  | invite => exact ⟨invite, inviteEvent, Except.ok.inj accepted⟩
  | leave | ban => exact Except.ok.inj accepted
  | knock => exact (Bool.and_eq_true_iff.mp (Except.ok.inj accepted)).2
  | custom name => cases accepted

theorem authCheck_member (kind : event.eventType = .roomMember)
    (accepted : authCheck ruma rv event thirdParty s = .ok true) :
    ∃ roomCreate target change, MemberChecked ruma rv event s roomCreate target change ∧
      change.Allowed ruma event roomCreate := by
  obtain ⟨roomCreate, created, _, accepted⟩ := authCheck_not_create (by rw [kind]; decide) accepted
  rcases checkInRoom_cases accepted (Or.inl kind) with ⟨_, accepted⟩ | ⟨other, _⟩
  · unfold checkMember at accepted
    split at accepted
    · cases accepted
    · rename_i stateKey keyed
      obtain ⟨fields, _, accepted⟩ := Outcome.bind_eq_ok.mp accepted
      split at accepted
      · cases accepted
      · split at accepted
        · cases accepted
        · rename_i target parsed
          have same := Ruma.userId_asStr parsed
          obtain ⟨change, version, targetUser, sender, creators, membership, senderMembership,
            currentMembership, powerLevels, allowed⟩ := validMembershipChange_accepted accepted
          exact ⟨roomCreate, target, change,
            ⟨created, by rw [keyed, same], version, targetUser, sender, membership, senderMembership,
              currentMembership, powerLevels, creators⟩, allowed⟩
  · exact absurd kind other

end Phantom.StateRes
