import Phantom.StateRes.EventAuth.Check

namespace Phantom.StateRes

open Phantom.Lib Phantom.Lib.Outcome Phantom.Matrix

section Readable

variable (ruma : Ruma) (rv : RoomVersion)

structure ReadableMember (content : Json) : Prop where
  fields : (decodeRoomMemberContentFields content).isSome
  membership : (getMembership ruma content).isSome
  thirdPartyInvite : (getThirdPartyInvite content).isSome
  given : ∀ fields, decodeRoomMemberContentFields content = some fields →
    ∃ membership, fields.membership = some membership ∧ (ruma.membershipState membership).isSome

structure ReadablePowerLevels (content : Json) : Prop where
  levels : (ruma.roomPowerLevels content).isSome
  fields : (deserializePowerLevelsContentFields ruma rv content).isSome
  legacyFields : (deserializeLegacyPowerLevelsContentFields ruma content).isSome
  invite : (deserializePowerLevelsContentInvite ruma rv content).isSome
  redact : (deserializePowerLevelsContentRedact ruma rv content).isSome

structure ReadableCreate (content : Json) : Prop where
  fields : (decodeRoomCreateContentFields content).isSome
  federate : (decodeFederate content).isSome
  creator : rv.useRoomCreateSender = false → ∃ creator, ruma.roomCreateCreator content = some (some creator)

/-- The content is one that the checks can read under the type. -/
def Readable : EventType → Json → Prop
  | .roomCreate, content => ReadableCreate ruma rv content
  | .roomMember, content => ReadableMember ruma content
  | .roomPowerLevels, content => ReadablePowerLevels ruma rv content
  | .roomJoinRules, content => (ruma.roomJoinRule content).isSome
  | _, _ => True

/-- Errors are allowed where the event's content cannot be read under the type. -/
def Blames (allowed : Failure Error → Prop) (kind : EventType) (event : Option Event) : Prop :=
  ∀ read, event = some read → ¬ Readable ruma rv kind read.content → ∀ error, allowed (.err error)

/-- So they are for all that the check of the event reads. -/
structure Blamed (allowed : Failure Error → Prop) (event : Event) (fetchState : TypeStateKey → Option Event) :
    Prop where
  own : Blames ruma rv allowed event.eventType (some event)
  state : ∀ key, Blames ruma rv allowed key.1 (fetchState key)
  target : event.eventType = .roomMember → ∀ stateKey message, event.stateKey = some stateKey →
    ruma.userId stateKey = .error message → ∀ error, allowed (.err error)
  defaults : ruma.roomPowerLevels (.object []) = none → ∀ error, allowed (.err error)

end Readable

section FailsOnly

variable {ruma : Ruma} {rv : RoomVersion} {allowed : Failure Error → Prop} {α : Type} {decode : Json → Option α}

theorem parse_failsOnly {content : Json} (target : String)
    (unread : decode content = none → ∀ error, allowed (.err error)) :
    (parse ruma target decode content).FailsOnly allowed := by
  unfold parse
  cases found : decode content with
  | none => exact .fail (unread found _)
  | some value => exact .ok value

theorem Blames.unread {kind : EventType} {event : Event} (blames : Blames ruma rv allowed kind (some event))
    (reads : Readable ruma rv kind event.content → (decode event.content).isSome)
    (missing : decode event.content = none) : ∀ error, allowed (.err error) := by
  refine blames event rfl fun readable => ?_
  have present := reads readable
  rw [missing] at present
  cases present

theorem membershipOf_failsOnly {event : Option Event} (blames : Blames ruma rv allowed .roomMember event) :
    (membershipOf ruma event).FailsOnly allowed := by
  cases event with
  | none => exact .ok _
  | some event => exact parse_failsOnly _ (blames.unread ReadableMember.membership)

theorem joinRuleOf_failsOnly {event : Option Event} (blames : Blames ruma rv allowed .roomJoinRules event) :
    (joinRuleOf ruma event).FailsOnly allowed := by
  cases event with
  | none => exact .ok _
  | some event => exact parse_failsOnly _ (blames.unread id)

section PowerLevels

variable {powerLevelsEvent : Option Event} (power : Blames ruma rv allowed .roomPowerLevels powerLevelsEvent)
include power

theorem powerLevelsOf_failsOnly
    (defaults : ruma.roomPowerLevels (.object []) = none → ∀ error, allowed (.err error)) :
    (powerLevelsOf ruma powerLevelsEvent).FailsOnly allowed := by
  cases powerLevelsEvent with
  | none => exact parse_failsOnly _ defaults
  | some event => exact parse_failsOnly _ (power.unread ReadablePowerLevels.levels)

theorem isUserForJoinAuthValid_failsOnly (creators : List UserId) (membership : MembershipState)
    (user : Option UserId) :
    (isUserForJoinAuthValid ruma rv powerLevelsEvent creators membership user).FailsOnly allowed := by
  cases user with
  | none => exact .ok _
  | some user =>
    refine .bind ?_ fun _ _ => .ok _
    cases powerLevelsEvent with
    | none => exact .ok _
    | some event =>
      exact .bind (parse_failsOnly _ (power.unread ReadablePowerLevels.invite)) fun _ _ =>
        .bind (parse_failsOnly _ (power.unread ReadablePowerLevels.fields)) fun _ _ => .ok _

theorem levelOr_failsOnly (default : Int) (target : String) {decode : Json → Option Int}
    (reads : ∀ content, ReadablePowerLevels ruma rv content → (decode content).isSome) :
    (levelOr ruma default target decode powerLevelsEvent).FailsOnly allowed := by
  cases powerLevelsEvent with
  | none => exact .ok _
  | some event => exact parse_failsOnly _ (power.unread (reads _))

theorem senderPowerLevel_failsOnly (roomCreateEvent : Event) (sender : UserId) :
    (senderPowerLevel ruma rv roomCreateEvent powerLevelsEvent sender).FailsOnly allowed := by
  unfold senderPowerLevel
  split
  · exact .ok _
  · split
    · exact .bind (parse_failsOnly _ (power.unread ReadablePowerLevels.fields)) fun _ _ => .ok _
    · exact .ok _

end PowerLevels

theorem isCreatorsFirstJoin_failsOnly (sender targetUser : UserId) (event : Event) {createRoom : Event}
    (create : Blames ruma rv allowed .roomCreate (some createRoom)) :
    (isCreatorsFirstJoin ruma rv sender targetUser event createRoom).FailsOnly allowed := by
  unfold isCreatorsFirstJoin isCreatorJoin
  split
  · split
    · exact .ok _
    · next version =>
      have named : ∀ readable : Readable ruma rv .roomCreate createRoom.content,
          ∃ creator, ruma.roomCreateCreator createRoom.content = some (some creator) :=
        fun readable => readable.creator (by simpa using version)
      refine .bind (parse_failsOnly _ (create.unread fun readable => ?_)) fun content decoded =>
        .bind ?_ fun _ _ => .ok _
      · obtain ⟨creator, found⟩ := named readable
        rw [found]
        rfl
      · cases content with
        | some creator => exact .ok _
        | none =>
          refine .fail (create _ rfl (fun readable => ?_) _)
          obtain ⟨creator, found⟩ := named readable
          cases found.symm.trans (ofOption_eq_ok.mp decoded)
  · exact .ok _

theorem checkCreate_failsOnly {event : Event} (own : Blames ruma rv allowed .roomCreate (some event)) :
    (checkCreate ruma rv event).FailsOnly allowed := by
  unfold checkCreate
  split
  · exact .ok _
  · split
    · exact .ok _
    · refine .bind (parse_failsOnly _ (own.unread ReadableCreate.fields)) fun _ _ => ?_
      repeat' split
      all_goals exact .ok _

theorem authTypesForEvent_failsOnly {kind : EventType} {content : Json}
    (unread : kind = .roomMember → decodeRoomMemberContentFields content = none → ∀ error, allowed (.err error))
    (sender : UserId) (stateKey : Option String) :
    (authTypesForEvent ruma rv kind sender stateKey content).FailsOnly allowed := by
  unfold authTypesForEvent
  split
  · exact .ok _
  · dsimp only
    split
    · split
      · next member =>
        refine .bind (parse_failsOnly _ (unread member)) fun _ _ => ?_
        split <;> exact .ok _
      · exact .ok _
    · exact .ok _

section Checks

variable {event roomCreateEvent : Event} {fetchState : TypeStateKey → Option Event}
variable (blamed : Blamed ruma rv allowed event fetchState)
include blamed

theorem checkMember_failsOnly (member : event.eventType = .roomMember)
    (created : fetchState (.roomCreate, "") = some roomCreateEvent) :
    (checkMember ruma rv event roomCreateEvent (fetchState (.roomPowerLevels, ""))
      (fetchState (.roomMember, event.sender.asStr)) fetchState).FailsOnly allowed := by
  have own : Blames ruma rv allowed .roomMember (some event) := member ▸ blamed.own
  have create : Blames ruma rv allowed .roomCreate (some roomCreateEvent) := created ▸ blamed.state (.roomCreate, "")
  have power := blamed.state (.roomPowerLevels, "")
  unfold checkMember
  split
  · exact .ok _
  next stateKey keyed =>
    refine .bind (parse_failsOnly _ (own.unread ReadableMember.fields)) fun _ _ => ?_
    split
    · exact .ok _
    split
    · next refused => exact .fail (blamed.target member stateKey _ keyed refused _)
    refine .bind (parse_failsOnly _ (own.unread ReadableMember.membership)) fun targetMembership _ =>
      .bind (parse_failsOnly _ (own.unread ReadableMember.thirdPartyInvite)) fun _ _ =>
      .bind (membershipOf_failsOnly (blamed.state (.roomMember, _))) fun _ _ =>
      .bind (membershipOf_failsOnly (blamed.state (.roomMember, _))) fun _ _ =>
      .bind (powerLevelsOf_failsOnly power blamed.defaults) fun _ _ =>
      .bind (joinRuleOf_failsOnly (blamed.state (.roomJoinRules, ""))) fun _ _ =>
      .bind (isUserForJoinAuthValid_failsOnly power _ _ _) fun _ _ => ?_
    cases targetMembership with
    | join => exact .bind (isCreatorsFirstJoin_failsOnly _ _ _ create) fun _ _ => .ok _
    | invite | leave | ban | knock | custom => exact .ok _

end Checks

end FailsOnly

/-- A membership event whose content is read but has no `membership`, as state that a remote
    server sent for a join may hold. -/
def MembershipMissing (memberEvent : Event) : Prop :=
  ∃ fields, decodeRoomMemberContentFields memberEvent.content = some fields ∧ fields.membership = none

section Sender

variable {ruma : Ruma} {rv : RoomVersion} {allowed : Failure Error → Prop}

theorem checkSender_failsOnly {event : Event} (roomCreateEvent : Event) {fetchState : TypeStateKey → Option Event}
    (blamed : Blamed ruma rv allowed event fetchState)
    (missing : ∀ memberEvent message, fetchState (.roomMember, event.sender.asStr) = some memberEvent →
      MembershipMissing memberEvent → allowed (.panic message)) :
    (checkSender ruma rv event roomCreateEvent (fetchState (.roomPowerLevels, ""))
      (fetchState (.roomMember, event.sender.asStr))).FailsOnly allowed := by
  have power := blamed.state (.roomPowerLevels, "")
  unfold checkSender
  split
  · exact .ok _
  case h_2 memberEvent fetched =>
    have member : Blames ruma rv allowed .roomMember (some memberEvent) :=
      fetched ▸ blamed.state (.roomMember, event.sender.asStr)
    refine .bind (parse_failsOnly _ (member.unread ReadableMember.fields)) fun fields decoded => ?_
    have decoded := ofOption_eq_ok.mp decoded
    refine .bind ?_ fun membership given => .bind (parse_failsOnly _ fun unread => ?_) fun _ _ => ?_
    · intro failure failed
      cases held : fields.membership with
      | some membership =>
        rw [held] at failed
        cases failed
      | none =>
        rw [held] at failed
        cases failed
        exact missing memberEvent _ fetched ⟨fields, decoded, held⟩
    · refine member _ rfl fun readable => ?_
      obtain ⟨_, found, read⟩ := readable.given fields decoded
      cases (expect_eq_ok.mp given).symm.trans found
      rw [unread] at read
      cases read
    · split
      · exact .ok _
      · refine .bind (senderPowerLevel_failsOnly power _ _) fun _ _ => ?_
        split
        · exact .bind (levelOr_failsOnly power _ _ fun _ => ReadablePowerLevels.invite) fun _ _ => .ok _
        · split
          · exact .ok _
          · split
            · exact .ok _
            · split
              · exact .bind (levelOr_failsOnly power _ _ fun _ => ReadablePowerLevels.redact) fun _ _ => .ok _
              · exact .ok _

theorem checkSender_missing (event roomCreateEvent : Event) (powerLevelsEvent : Option Event)
    {memberEvent : Event} (missing : MembershipMissing memberEvent) :
    checkSender ruma rv event roomCreateEvent powerLevelsEvent (some memberEvent) =
      .error (.panic "we should test before that this field exists") := by
  obtain ⟨fields, decoded, absent⟩ := missing
  simp only [checkSender, parse, decoded, ofOption_some, ok_bind, absent, expect, error_bind]

end Sender

section AuthCheck

variable (ruma : Ruma) (rv : RoomVersion) (event : Event) (fetchState : TypeStateKey → Option Event)

/-- The checks of the event get as far as its sender's membership. -/
structure ReadsSender : Prop where
  notCreate : event.eventType ≠ .roomCreate
  notMember : event.eventType ≠ .roomMember
  notAliases : ¬ (rv.specialCaseAliasesAuth ∧ event.eventType.toString = "m.room.aliases")
  named : ∃ roomCreateEvent federate, fetchState (.roomCreate, "") = some roomCreateEvent ∧
    namesCreate ruma rv event roomCreateEvent ∧ decodeFederate roomCreateEvent.content = some federate ∧
    (federate = false → ruma.userServerName roomCreateEvent.sender = ruma.userServerName event.sender)

/-- Why the check of an event panics: it reads a membership that is not there. -/
def ReadsMissingMembership : Prop :=
  ReadsSender ruma rv event fetchState ∧
    ∃ memberEvent, fetchState (.roomMember, event.sender.asStr) = some memberEvent ∧ MembershipMissing memberEvent

variable {ruma rv event fetchState}

theorem authCheck_failsOnly {allowed : Failure Error → Prop} (blamed : Blamed ruma rv allowed event fetchState)
    (thirdParty : Option Event)
    (missing : ∀ message, ReadsMissingMembership ruma rv event fetchState → allowed (.panic message)) :
    (authCheck ruma rv event thirdParty fetchState).FailsOnly allowed := by
  unfold authCheck
  split
  · next isCreate => exact checkCreate_failsOnly (isCreate ▸ blamed.own)
  case isFalse notCreate =>
    split
    · exact .ok _
    case h_2 roomCreateEvent created =>
      have create : Blames ruma rv allowed .roomCreate (some roomCreateEvent) :=
        created ▸ blamed.state (.roomCreate, "")
      split
      · exact .ok _
      case isFalse named =>
        refine .bind (parse_failsOnly _ (create.unread ReadableCreate.federate)) fun federate decoded => ?_
        split
        · exact .ok _
        case isFalse near =>
          split
          · exact .ok _
          case isFalse notAliases =>
            split
            · next member => exact checkMember_failsOnly blamed member created
            case isFalse notMember =>
              refine checkSender_failsOnly _ blamed fun memberEvent message fetched absent => ?_
              refine missing message ⟨⟨notCreate, notMember, notAliases, ?_⟩, memberEvent, fetched, absent⟩
              exact ⟨roomCreateEvent, federate, created, by simpa using named, ofOption_eq_ok.mp decoded,
                by simpa using near⟩

theorem Blamed.of_all {allowed : Failure Error → Prop} (own : ∀ error, allowed (.err error)) :
    Blamed ruma rv allowed event fetchState :=
  ⟨fun _ _ _ => own, fun _ _ _ _ => own, fun _ _ _ _ _ => own, fun _ => own⟩

theorem authCheck_finishes (event : Event) (thirdParty : Option Event) (fetchState : TypeStateKey → Option Event) :
    (authCheck ruma rv event thirdParty fetchState).Finishes := by
  intro unfinished
  have only : (authCheck ruma rv event thirdParty fetchState).FailsOnly (· ≠ .unfinished) :=
    authCheck_failsOnly (.of_all (by simp)) thirdParty (by simp)
  exact only _ unfinished rfl

/-- The check of an event answers exactly where it does not come to read a membership of its
    sender that the sender's membership event does not have. -/
theorem auth_check_answers_iff (ruma : Ruma) (rv : RoomVersion) (event : Event)
    (thirdParty : Option Event) (fetchState : TypeStateKey → Option Event) :
    (authCheck ruma rv event thirdParty fetchState).Answers ↔ ¬ ReadsMissingMembership ruma rv event fetchState := by
  constructor
  · rintro answers ⟨⟨notCreate, notMember, notAliases, roomCreateEvent, federate, created, named, decoded, near⟩,
      memberEvent, fetched, absent⟩
    have permitted : ¬ (federate = false ∧
        ¬ ruma.userServerName roomCreateEvent.sender = ruma.userServerName event.sender) := by
      grind
    simp [authCheck, notCreate, created, named, checkInRoom, parse, decoded, permitted, notAliases, notMember,
      fetched, checkSender_missing _ _ _ absent, Answers, fail] at answers
  · intro held
    exact (authCheck_failsOnly (.of_all fun error => ⟨error, rfl⟩) thirdParty
      (fun _ missing => absurd missing held)).answers

theorem authTypesForEvent_finishes (kind : EventType) (sender : UserId) (stateKey : Option String)
    (content : Json) : (authTypesForEvent ruma rv kind sender stateKey content).Finishes := by
  intro unfinished
  have only : (authTypesForEvent ruma rv kind sender stateKey content).FailsOnly (· ≠ .unfinished) :=
    authTypesForEvent_failsOnly (by simp) sender stateKey
  exact only _ unfinished rfl

end AuthCheck

namespace Sample

open Phantom.Matrix.Sample

def bareMember : Event := event "$b" bob .roomMember (some bob.asStr) [] ["$c"] ["$c"]

def hello : Event :=
  event "$h" bob (.other "m.room.message" (by decide)) none [("body", .string "hello")] ["$b"] ["$c", "$b"]

/-- A message of a user whose membership event, as a remote server sent it, is empty. -/
theorem hello_panics : (∀ key found, stateOf [create, bareMember] key = some found →
      found.eventType = key.1 ∧ found.stateKey = some key.2 ∧ found.content = .object []) ∧
    authCheck ruma .V11 hello none (stateOf [create, bareMember]) =
      .error (.panic "we should test before that this field exists") := by
  refine ⟨fun key found held => ?_, by decide⟩
  have keyed : found.eventType = key.1 ∧ found.stateKey = some key.2 := by
    simpa using List.find?_some held
  have listed : found = create ∨ found = bareMember := by
    simpa using List.mem_of_find?_eq_some held
  refine ⟨keyed.1, keyed.2, ?_⟩
  rcases listed with rfl | rfl <;> rfl

end Sample

end Phantom.StateRes
