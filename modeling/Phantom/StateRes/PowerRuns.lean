import Phantom.StateRes.BanRuns
import Phantom.StateRes.EventAuth.LevelChanges

namespace Phantom.StateRes

open Phantom.Lib Phantom.Matrix

/-- What the checks rely on in the deserialisers of power levels: an object is not an integer,
    and the content type reads users the way its users-only part does. -/
structure LevelsCoherent (ruma : Ruma) : Prop where
  int_object : ∀ members, ruma.int (.object members) = none
  legacy_users : ∀ content levels fields, ruma.roomPowerLevels content = some levels →
    deserializeLegacyPowerLevelsContentFields ruma content = some fields →
    fields.users = levels.users ∧ fields.usersDefault = levels.usersDefault

section Agreement

variable {ruma : Ruma}
variable {level notifications : Json → Option Int} {eventLevels : Json → Option (BTreeMap EventType Int)}
variable {userLevels : Json → Option (BTreeMap UserId Int)} {content : Json} {levels : PowerLevels}
variable {fields : PowerLevelsContentFields}

theorem decode_levels (decoded : PowerLevels.decode level eventLevels userLevels notifications content = some levels) :
    content.defaultField powerLevelsFields "ban" defaultPowerLevel level = some levels.ban ∧
    content.defaultField powerLevelsFields "users" .empty userLevels = some levels.users ∧
    content.defaultField powerLevelsFields "users_default" 0 level = some levels.usersDefault := by
  simp only [PowerLevels.decode, Option.bind_eq_bind, Option.bind_eq_some_iff] at decoded
  obtain ⟨ban, banRead, _, _, _, _, _, _, _, _, _, _, _, _, users, usersRead, usersDefault, defaultRead, _, _, made⟩ :=
    decoded
  cases made
  exact ⟨banRead, usersRead, defaultRead⟩

theorem decode_fields (decoded : deserializeContentFields userLevels level content = some fields) :
    content.defaultField ["users", "users_default"] "users" .empty userLevels = some fields.users ∧
    content.defaultField ["users", "users_default"] "users_default" 0 level = some fields.usersDefault := by
  obtain ⟨users, usersRead, decoded⟩ := Option.bind_eq_some_iff.mp decoded
  grind [Option.bind_eq_some_iff]

/-- A content and its users-only part hold the same users. A sequence that both accept is empty,
    since its first item would have to be a level for one and a map for the other. -/
theorem decoded_users_agree (level_object : ∀ members, level (.object members) = none)
    (users_object : ∀ json users, userLevels json = some users → ∃ members, json = .object members)
    (full : PowerLevels.decode level eventLevels userLevels notifications content = some levels)
    (part : deserializeContentFields userLevels level content = some fields) :
    fields.users = levels.users ∧ fields.usersDefault = levels.usersDefault := by
  obtain ⟨banRead, usersRead, defaultRead⟩ := decode_levels full
  obtain ⟨usersRead', defaultRead'⟩ := decode_fields part
  cases content with
  | object members =>
    exact ⟨Option.some.inj (usersRead'.symm.trans usersRead), Option.some.inj (defaultRead'.symm.trans defaultRead)⟩
  | array items =>
    cases items with
    | nil =>
      exact ⟨Option.some.inj (usersRead'.symm.trans usersRead), Option.some.inj (defaultRead'.symm.trans defaultRead)⟩
    | cons item items =>
      obtain ⟨banSlot, banField, banRead⟩ := Option.bind_eq_some_iff.mp banRead
      obtain ⟨usersSlot, usersField, usersRead'⟩ := Option.bind_eq_some_iff.mp usersRead'
      simp only [Json.field] at banField usersField
      split at banField
      · cases banField
      · split at usersField
        · cases usersField
        · cases banField
          cases usersField
          obtain ⟨members, rfl⟩ := users_object _ _ usersRead'
          have absent : level (.object members) = some levels.ban := banRead
          rw [level_object members] at absent
          cases absent
  | _ => cases usersRead

theorem decodeMap_object {K V : Type} [LinearOrder K] {key : String → Option K} {value : Json → Option V}
    (json : Json) (map : BTreeMap K V) (decoded : Json.decodeMap key value json = some map) :
    ∃ members, json = .object members := by
  cases json with
  | object members => exact ⟨members, rfl⟩
  | _ => cases decoded

theorem users_agree (coherent : LevelsCoherent ruma) {rv : RoomVersion}
    (full : deserializePowerLevels ruma rv content = some levels)
    (part : deserializePowerLevelsContentFields ruma rv content = some fields) :
    fields.users = levels.users ∧ fields.usersDefault = levels.usersDefault := by
  unfold deserializePowerLevels at full
  unfold deserializePowerLevelsContentFields at part
  split at full
  · rename_i integer
    rw [integer] at part
    exact decoded_users_agree coherent.int_object decodeMap_object full part
  · grind [LevelsCoherent.legacy_users]

end Agreement

/-- One `m.room.power_levels` event of a sender without infinite power, accepted by `auth_check`
    in a room state that holds the current power levels. -/
def PowerStep (ruma : Ruma) (rv : RoomVersion) (roomCreate : Event) (current : Option Event)
    (event : Event) (next : Option Event) : Prop :=
  event.eventType = .roomPowerLevels ∧ event.sender ∉ privilegedCreators ruma rv roomCreate ∧
    (∃ state thirdParty, state (.roomCreate, "") = some roomCreate ∧ state (.roomPowerLevels, "") = current ∧
      authCheck ruma rv event thirdParty state = .ok true) ∧ next = some event

structure PowerChange (ruma : Ruma) (rv : RoomVersion) (creators : List UserId)
    (current : Option Event) (event : Event) (new : PowerLevels) : Prop where
  decoded : deserializePowerLevels ruma rv event.content = some new
  creators_unlisted : ∀ creator ∈ creators, new.users.get creator = none
  within : ∀ previous, current = some previous → ∃ old, deserializePowerLevels ruma rv previous.content = some old ∧
      ChangesWithin event.sender (userLevel old event.sender) old new ∧ maxLevel new ≤ maxLevel old

section PowerRun

variable {ruma : Ruma} {rv : RoomVersion} {roomCreate event : Event} {current : Option Event}

theorem checkSender_powerLevels {memberEvent : Option Event} (kind : event.eventType = .roomPowerLevels)
    (accepted : checkSender ruma rv event roomCreate current memberEvent = .ok true) :
    ∃ power, senderPowerLevel ruma rv roomCreate current event.sender = .ok power ∧
      checkPowerLevels ruma rv event current power (privilegedCreators ruma rv roomCreate) = some true := by
  unfold checkSender at accepted
  split at accepted
  · cases accepted
  · obtain ⟨content, _, accepted⟩ := Outcome.bind_eq_ok.mp accepted
    obtain ⟨membership, _, accepted⟩ := Outcome.bind_eq_ok.mp accepted
    obtain ⟨membershipState, _, accepted⟩ := Outcome.bind_eq_ok.mp accepted
    split at accepted
    · cases accepted
    · obtain ⟨power, ranked, accepted⟩ := Outcome.bind_eq_ok.mp accepted
      have notInvite : event.eventType ≠ .roomThirdPartyInvite := by rw [kind]; decide
      rw [if_neg notInvite] at accepted
      split at accepted
      · cases accepted
      · split at accepted
        · cases accepted
        · grind

variable {power : UserPower} {old : PowerLevels}

theorem senderPowerLevel_finite (coherent : LevelsCoherent ruma) {sender : UserId} {prev : Event}
    (finite : sender ∉ privilegedCreators ruma rv roomCreate)
    (ranked : senderPowerLevel ruma rv roomCreate (some prev) sender = .ok power)
    (decoded : deserializePowerLevels ruma rv prev.content = some old) : power = .level (userLevel old sender) := by
  rw [senderPowerLevel, if_neg finite] at ranked
  obtain ⟨fields, read, made⟩ := Outcome.bind_eq_ok.mp ranked
  obtain ⟨users, usersDefault⟩ := users_agree coherent decoded (parse_eq_ok.mp read)
  have level := Except.ok.inj made
  rw [PowerLevelsContentFields.getUserPower_eq, users, usersDefault] at level
  exact level.symm

theorem get_eq_none_of_not_containsKey {map : BTreeMap UserId Int} {user : UserId}
    (absent : map.containsKey user = false) : map.get user = none := by
  simpa [BTreeMap.containsKey] using absent

theorem checkPowerLevels_change (coherent : LevelsCoherent ruma)
    (finite : event.sender ∉ privilegedCreators ruma rv roomCreate)
    (ranked : senderPowerLevel ruma rv roomCreate current event.sender = .ok power)
    (checked : checkPowerLevels ruma rv event current power (privilegedCreators ruma rv roomCreate) = some true) :
    ∃ new, PowerChange ruma rv (privilegedCreators ruma rv roomCreate) current event new := by
  unfold checkPowerLevels at checked
  split at checked
  · cases checked
  · obtain ⟨new, decoded, checked⟩ := Option.bind_eq_some_iff.mp checked
    split at checked
    · cases checked
    · rename_i unlisted
      have creators : ∀ creator ∈ privilegedCreators ruma rv roomCreate, new.users.get creator = none := by
        grind [get_eq_none_of_not_containsKey]
      refine ⟨new, decoded, creators, ?_⟩
      rintro prev rfl
      obtain ⟨old, oldDecoded, allowed⟩ := Option.bind_eq_some_iff.mp checked
      have level := senderPowerLevel_finite coherent finite ranked oldDecoded
      have allowed := Option.some.inj allowed
      rw [level] at allowed
      have within := levelChangesAllowed_within allowed
      exact ⟨old, oldDecoded, within, within.maxLevel_le⟩

theorem power_step (coherent : LevelsCoherent ruma) {next : Option Event}
    (step : PowerStep ruma rv roomCreate current event next) :
    ∃ new, PowerChange ruma rv (privilegedCreators ruma rv roomCreate) current event new := by
  obtain ⟨kind, finite, ⟨s, thirdParty, created, held, accepted⟩, _⟩ := step
  obtain ⟨found, fetched, _, accepted⟩ := authCheck_not_create (by rw [kind]; decide) accepted
  have same : roomCreate = found := Option.some.inj (created.symm.trans fetched)
  subst same
  rcases checkInRoom_cases accepted (Or.inr kind) with ⟨mem, _⟩ | ⟨_, accepted⟩
  · rw [kind] at mem
    cases mem
  · rw [held] at accepted
    obtain ⟨power, ranked, checked⟩ := checkSender_powerLevels kind accepted
    exact checkPowerLevels_change coherent finite ranked checked

variable {first last : Option Event} {events : List Event}

theorem run_current (run : Run (PowerStep ruma rv roomCreate) first events last) : last = events.getLast?.or first := by
  induction run with
  | nil s => rfl
  | cons step rest ih =>
    rw [step.2.2.2] at ih
    grind

theorem maxLevel_run (coherent : LevelsCoherent ruma) (run : Run (PowerStep ruma rv roomCreate) first events last)
    {start finish : Event} {new : PowerLevels} (starts : first = some start)
    (decodedStart : deserializePowerLevels ruma rv start.content = some old) (finishes : last = some finish)
    (decodedFinish : deserializePowerLevels ruma rv finish.content = some new) : maxLevel new ≤ maxLevel old := by
  induction run generalizing start old with
  | nil s =>
    grind
  | cons step rest ih =>
    obtain ⟨middle, change⟩ := power_step coherent step
    obtain ⟨before, decodedBefore, _, below⟩ := change.within start starts
    rw [decodedStart] at decodedBefore
    cases decodedBefore
    exact (ih step.2.2.2 change.decoded finishes).trans below

/-- Along every run of accepted power levels events no sender raises anything above their own
    level, no peer is demoted, and the highest level of any user never grows. -/
theorem no_privilege_escalation (coherent : LevelsCoherent ruma) {first last : Option Event}
    {events : List Event} (run : Run (PowerStep ruma rv roomCreate) first events last) :
    (∀ before event after, events = before ++ event :: after →
      ∃ new, PowerChange ruma rv (privilegedCreators ruma rv roomCreate) (before.getLast?.or first) event new) ∧
    ∀ start finish old new, first = some start → last = some finish →
      deserializePowerLevels ruma rv start.content = some old →
      deserializePowerLevels ruma rv finish.content = some new → maxLevel new ≤ maxLevel old := by
  constructor
  · rintro before event after rfl
    obtain ⟨middle, left, right⟩ := Run.split run
    cases right with
    | cons step rest =>
      rw [← run_current left]
      exact power_step coherent step
  · intro start finish old new starts finishes decodedStart decodedFinish
    exact maxLevel_run coherent run starts decodedStart finishes decodedFinish

end PowerRun

namespace Sample

open Phantom.Matrix.Sample

theorem levelsCoherent : LevelsCoherent ruma where
  int_object _ := rfl
  legacy_users _ _ _ full part := decoded_users_agree (fun _ => rfl) decodeMap_object full part

def levelsEvent (eventId : String) (sender : UserId) (levels : List (String × Int)) : Event :=
  event eventId sender .roomPowerLevels (some "")
    [("users", .object (levels.map fun entry => (entry.1, .number entry.2 0)))] ["$j"] ["$j"]

def promoted : Event := levelsEvent "$p" alice [("@bob:hs", 60)]
def demoted : Event := levelsEvent "$q" bob [("@bob:hs", 50)]

def powerState (current : Option Event) : RoomState :=
  stateOf ([create, member "$j" alice alice "join" ["$c"] [], member "$k" bob bob "join" ["$j"] []] ++ current.toList)

theorem bob_demotes : PowerStep ruma .V12 create (some promoted) demoted (some demoted) :=
  ⟨rfl, by decide, ⟨powerState (some promoted), none, rfl, rfl, by decide⟩, rfl⟩

theorem no_privilege_escalation_demoted :
    ∃ new, PowerChange ruma .V12 (privilegedCreators ruma .V12 create) (some promoted) demoted new := by
  have run : Run (PowerStep ruma .V12 create) (some promoted) [demoted] (some demoted) := .cons bob_demotes (.nil _)
  exact (no_privilege_escalation levelsCoherent run).1 [] demoted [] rfl

end Sample

end Phantom.StateRes
