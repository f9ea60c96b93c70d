import Phantom.Lib.Fold
import Phantom.StateRes.EventAuth.Accepted

namespace Phantom.StateRes

open Phantom.Lib Phantom.Matrix

/-- A room state: under each key at most one event, which belongs there. -/
structure KeyedState where
  fetch : TypeStateKey → Option Event
  keyed : ∀ {key event}, fetch key = some event → event.eventType = key.1 ∧ event.stateKey = some key.2

/-- The states hold the same events under the selected keys, and the same create event where the
    room ID implies it. -/
structure AgreeOn (rv : RoomVersion) (keys : List TypeStateKey) (first second : KeyedState) : Prop where
  selected : ∀ key ∈ keys, first.fetch key = second.fetch key
  create : rv.roomCreateEventIdAsRoomId = true → first.fetch (.roomCreate, "") = second.fetch (.roomCreate, "")

def CreateNameable (ruma : Ruma) (rv : RoomVersion) (event : Event) : Prop :=
  if rv.roomCreateEventIdAsRoomId then
    ∃ id, createEventIdOf ruma event.roomId = some id ∧ id ∉ event.authEvents
  else event.authEvents ≠ []

/-- The check of a member event comes to read the join rules, which are only selected for joins,
    invites and knocks. -/
structure ReadsUnselectedJoinRules (ruma : Ruma) (rv : RoomVersion) (event : Event) : Prop where
  kind : event.eventType = .roomMember
  target : ∃ stateKey user, event.stateKey = some stateKey ∧ ruma.userId stateKey = .ok user
  membership : ∃ fields membership, decodeRoomMemberContentFields event.content = some fields ∧
    fields.membershipState ruma = some membership ∧ membership ∉ [.join, .invite, .knock]
  readable : (getMembership ruma event.content).isSome
  create : CreateNameable ruma rv event

section Content

variable {ruma : Ruma} {content : Json} {fields : RoomMemberContentFields}

section

variable (decoded : decodeRoomMemberContentFields content = some fields)
    (readable : (getMembership ruma content).isSome)
include decoded readable

theorem content_object : ∃ members, content = .object members := by
  obtain ⟨first, firstRead, decoded⟩ := Option.bind_eq_some_iff.mp decoded
  obtain ⟨second, secondRead, _⟩ := Option.bind_eq_some_iff.mp decoded
  cases content with
  | object members => exact ⟨members, rfl⟩
  | array items =>
    unfold getMembership Json.requiredField at readable
    unfold Json.optionalField at secondRead
    simp only [Json.field] at readable secondRead
    by_cases long : 1 < items.length
    · simp [long] at readable
    · have short : items[roomMemberFields.idxOf "third_party_invite"]? = none := by
        grind [roomMemberFields]
      rw [short] at secondRead
      split at secondRead
      · cases secondRead
      · cases secondRead
  | _ => cases firstRead

theorem getMembership_eq {membership : MembershipState} (named : fields.membershipState ruma = some membership) :
    getMembership ruma content = some membership := by
  obtain ⟨members, rfl⟩ := content_object decoded readable
  obtain ⟨read, fieldRead, decoded⟩ := Option.bind_eq_some_iff.mp decoded
  obtain ⟨_, _, decoded⟩ := Option.bind_eq_some_iff.mp decoded
  obtain ⟨_, _, decoded⟩ := Option.bind_eq_some_iff.mp decoded
  cases decoded
  obtain ⟨raw, held, s⟩ := Option.bind_eq_some_iff.mp named
  obtain ⟨slot, slotRead, optional⟩ := Option.bind_eq_some_iff.mp fieldRead
  have value : slot = .value raw := by
    cases slot with
    | value json =>
      cases json with
      | null => cases optional.trans (congrArg some held)
      | _ => cases optional.trans (congrArg some held); rfl
    | missing => cases optional.trans (congrArg some held)
    | pastEnd => cases optional
  subst value
  have same : Json.field ["membership"] "membership" (.object members) = some (.value raw) := slotRead
  rw [getMembership, Json.requiredField, same]
  exact s

theorem getThirdPartyInvite_isSome : ∃ invite, getThirdPartyInvite content = some invite := by
  obtain ⟨members, rfl⟩ := content_object decoded readable
  obtain ⟨_, _, decoded⟩ := Option.bind_eq_some_iff.mp decoded
  obtain ⟨invite, read, _⟩ := Option.bind_eq_some_iff.mp decoded
  exact ⟨invite, read⟩

end

end Content

section Selected

variable {ruma : Ruma} {rv : RoomVersion} {event : Event} {keys : List TypeStateKey}
variable {fields : RoomMemberContentFields} {membership : MembershipState} {senderMember powerLevels : Option Event}

variable {key : TypeStateKey} {stateKey : String}

theorem mem_memberAuthTypes {authTypes : List TypeStateKey} :
    key ∈ memberAuthTypes ruma fields membership stateKey authTypes ↔
      key ∈ authTypes ∨ key = (.roomMember, stateKey) ∨
      (membership ∈ [.join, .invite, .knock] ∧ (key = (.roomJoinRules, "") ∨
        ∃ user, fields.userForJoinAuth ruma = some user ∧ key = (.roomMember, user.asStr))) ∨
      (membership = .invite ∧ ∃ token, fields.thirdPartyToken ruma = some token ∧
        key = (.roomThirdPartyInvite, token)) := by
  unfold memberAuthTypes
  by_cases listed : membership ∈ [.join, .invite, .knock]
  · by_cases invite : membership = .invite
    · cases fields.userForJoinAuth ruma <;> cases fields.thirdPartyToken ruma <;> simp [invite] <;> tauto
    · cases fields.userForJoinAuth ruma <;> simp [listed, invite] <;> tauto
  · have invite : membership ≠ .invite := by
      intro same
      exact listed (by simp [same])
    simp [listed, invite]
    tauto

theorem validMembershipChange_thirdParty {targetUser sender : UserId} {event createRoom : Event}
    {target first second joinRules : Option Event} {user : Option UserId} {creators : List UserId}
    (notInvite : getMembership ruma event.content ≠ some .invite) :
    validMembershipChange ruma rv targetUser target sender senderMember event first powerLevels joinRules
        user membership createRoom creators =
      validMembershipChange ruma rv targetUser target sender senderMember event second powerLevels joinRules
        user membership createRoom creators := by
  refine bind_congr_ok fun targetMembership read => ?_
  grind [parse_eq_ok]

variable {create : Event}

theorem createNameable_of_namesCreate (named : namesCreate ruma rv event create = true) :
    CreateNameable ruma rv event := by
  grind [CreateNameable, namesCreate, roomIdDerivesFrom]

variable {first second : KeyedState}
  (selected : authTypesForEvent ruma rv event.eventType event.sender event.stateKey event.content = .ok keys)
include selected

theorem authTypes_base (notCreate : event.eventType ≠ .roomCreate)
    (base : key ∈ baseAuthTypes rv event.sender) : key ∈ keys := by
  simp only [authTypesForEvent, notCreate, if_false] at selected
  split at selected
  · split at selected
    · obtain ⟨fields, _, selected⟩ := Outcome.bind_eq_ok.mp selected
      split at selected
      · cases selected
        exact mem_memberAuthTypes.mpr (Or.inl base)
      · cases selected
        exact base
    · cases selected
      exact base
  · cases selected
    exact base

theorem authTypes_member (kind : event.eventType = .roomMember) (keyed : event.stateKey = some stateKey)
    (decoded : decodeRoomMemberContentFields event.content = some fields)
    (named : fields.membershipState ruma = some membership) :
    keys = memberAuthTypes ruma fields membership stateKey (baseAuthTypes rv event.sender) := by
  grind [Outcome.ofOption_some, Outcome.ok_bind, Outcome.pure_eq_ok, authTypesForEvent, parse]

theorem agree_base (notCreate : event.eventType ≠ .roomCreate)
    (agree : AgreeOn rv keys first second) : first.fetch (.roomCreate, "") = second.fetch (.roomCreate, "") ∧
    first.fetch (.roomPowerLevels, "") = second.fetch (.roomPowerLevels, "") ∧
    first.fetch (.roomMember, event.sender.asStr) = second.fetch (.roomMember, event.sender.asStr) := by
  grind [AgreeOn.selected, authTypes_base, AgreeOn.create, baseAuthTypes]

theorem checkMember_congr (kind : event.eventType = .roomMember)
    (agree : AgreeOn rv keys first second) (named : namesCreate ruma rv event create = true)
    (safe : ¬ ReadsUnselectedJoinRules ruma rv event) :
    checkMember ruma rv event create powerLevels senderMember first.fetch =
      checkMember ruma rv event create powerLevels senderMember second.fetch := by
  unfold checkMember
  split
  · rfl
  · rename_i stateKey keyed
    refine bind_congr_ok fun fields decoded => ?_
    rw [parse_eq_ok] at decoded
    cases membershipRead : fields.membershipState ruma with
    | none => rfl
    | some membership =>
      simp only [Option.isNone_some, Bool.false_eq_true, if_false]
      split
      · rfl
      · rename_i targetUser parsed
        by_cases readable : (getMembership ruma event.content).isSome
        · have read := getMembership_eq decoded readable membershipRead
          have keysAre := authTypes_member selected kind keyed decoded membershipRead
          have listed : membership ∈ [.join, .invite, .knock] := by
            by_contra unlisted
            exact safe ⟨kind, ⟨stateKey, targetUser, keyed, parsed⟩,
              ⟨fields, membership, decoded, membershipRead, unlisted⟩, readable, createNameable_of_namesCreate named⟩
          have agreed : ∀ key, _ → first.fetch key = second.fetch key := fun key mem =>
            agree.selected key (keysAre ▸ mem_memberAuthTypes.mpr mem)
          have target := agreed (.roomMember, targetUser.asStr) (Or.inr (Or.inl (by rw [Ruma.userId_asStr parsed])))
          have rules := agreed (.roomJoinRules, "") (Or.inr (Or.inr (Or.inl ⟨listed, Or.inl rfl⟩)))
          have vouched : (fields.userForJoinAuth ruma).bind (fun user => first.fetch (.roomMember, user.asStr)) =
              (fields.userForJoinAuth ruma).bind (fun user => second.fetch (.roomMember, user.asStr)) := by
            cases user : fields.userForJoinAuth ruma with
            | none => rfl
            | some user => grind
          rw [target, rules, vouched]
          by_cases invite : membership = .invite
          · have invited : (fields.thirdPartyToken ruma).bind
                  (fun token => first.fetch (.roomThirdPartyInvite, token)) = (fields.thirdPartyToken ruma).bind
                  (fun token => second.fetch (.roomThirdPartyInvite, token)) := by
              cases token : fields.thirdPartyToken ruma with
              | none => rfl
              | some token => grind
            rw [invited]
          · grind [validMembershipChange_thirdParty]
        · have missing : getMembership ruma event.content = none := by simpa using readable
          simp only [validMembershipChange, parse, missing, Outcome.ofOption_none, Outcome.fail_bind]

theorem authCheck_congr {thirdParty other : Option Event} (notCreate : event.eventType ≠ .roomCreate)
    (agree : AgreeOn rv keys first second) (safe : ¬ ReadsUnselectedJoinRules ruma rv event) :
    authCheck ruma rv event thirdParty first.fetch = authCheck ruma rv event other second.fetch := by
  grind [agree_base, checkMember_congr, authCheck, checkInRoom]

end Selected

end Phantom.StateRes
