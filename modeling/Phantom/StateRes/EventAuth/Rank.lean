import Phantom.StateRes.PowerRuns

namespace Phantom.StateRes

open Phantom.Lib Phantom.Matrix

/-- The levels that `{}` stands for. -/
def noLevels : PowerLevels where
  ban := defaultPowerLevel
  events := .empty
  eventsDefault := 0
  invite := 0
  kick := defaultPowerLevel
  redact := defaultPowerLevel
  stateDefault := defaultPowerLevel
  users := .empty
  usersDefault := 0
  notificationsRoom := defaultPowerLevel

/-- The power of a user in a room: without a power levels event the creator has 100 and others have 0. -/
def roomPower (ruma : Ruma) (rv : RoomVersion) (roomCreate : Event) (powerLevelsEvent : Option Event)
    (levels : PowerLevels) (user : UserId) : UserPower :=
  match powerLevelsEvent with
  | some _ => effectivePower (privilegedCreators ruma rv roomCreate) levels user
  | none =>
    if user ∈ privilegedCreators ruma rv roomCreate then .infinite
    else .level (if isCreator ruma rv roomCreate user then 100 else 0)

section Removal

variable {ruma : Ruma} {rv : RoomVersion} {event roomCreate : Event} {change : MembershipChange}

/-- The level that a leave or a ban of another user takes. -/
def removalLevel (levels : PowerLevels) (membership : MembershipState) : Int :=
  if membership = .ban then levels.ban else levels.kick

theorem removal_ranked (allowed : change.Allowed ruma event roomCreate) (other : change.sender ≠ change.targetUser)
    (removes : change.targetMembership = .leave ∨ change.targetMembership = .ban) : change.senderMembership = .join ∧
      .level (removalLevel change.powerLevels change.targetMembership) ≤
        effectivePower change.creators change.powerLevels change.sender ∧
      explicitPower change.creators change.powerLevels change.targetUser <
        some (effectivePower change.creators change.powerLevels change.sender) := by
  have target : change.targetPower = explicitPower change.creators change.powerLevels change.targetUser := by
    rcases removes with kind | kind <;> simp [MembershipChange.targetPower, explicitPower, kind]
  have checked : change.senderIsJoined = true ∧ (change.senderPower.filter fun power =>
      .level (removalLevel change.powerLevels change.targetMembership) ≤ power).isSome ∧
      change.targetPower < change.senderPower := by
    rcases removes with kind | kind
    all_goals
      simp only [MembershipChange.Allowed, kind, MembershipChange.leaveAllowed, MembershipChange.banAllowed,
        other] at allowed
      simp only [removalLevel, kind]
      grind
  obtain ⟨joined, enough, outranks⟩ := checked
  have joined : change.senderMembership = .join := by simpa [MembershipChange.senderIsJoined] using joined
  rw [senderPower_of_joined joined, target] at outranks
  rw [senderPower_of_joined joined] at enough
  refine ⟨joined, ?_, outranks⟩
  by_contra below
  simp [Option.filter, below] at enough

/-- What tells the ranks of two users apart where no power is left open: an entry of the target's own, or
    a sender above the default. -/
def RanksTold (creators : List UserId) (levels : PowerLevels) (sender target : UserId) : Prop :=
  (levels.users.get target).isSome ∨ sender ∈ creators ∨
    ∃ own, levels.users.get sender = some own ∧ levels.usersDefault < own

theorem effectivePower_lt_iff {creators : List UserId} {levels : PowerLevels} {sender target : UserId}
    (outranks : explicitPower creators levels target < some (effectivePower creators levels sender)) :
    effectivePower creators levels target < effectivePower creators levels sender ↔
      RanksTold creators levels sender target := by
  unfold explicitPower effectivePower RanksTold at *
  by_cases targetCreates : target ∈ creators
  · simp [targetCreates] at outranks
  · cases listed : levels.users.get target <;> cases own : levels.users.get sender <;>
      by_cases creates : sender ∈ creators <;> simp_all

variable {thirdParty : Option Event} {state : TypeStateKey → Option Event} {membership : MembershipState}

/-- The sender is joined, has the level that the removal takes and outranks the target. -/
def RespectsRank (ruma : Ruma) (rv : RoomVersion) (state : TypeStateKey → Option Event) (roomCreate : Event)
    (levels : PowerLevels) (membership : MembershipState) (sender target : UserId) : Prop :=
  membershipOf ruma (state (.roomMember, sender.asStr)) = .ok .join ∧
    .level (removalLevel levels membership) ≤ roomPower ruma rv roomCreate (state (.roomPowerLevels, "")) levels sender ∧
    roomPower ruma rv roomCreate (state (.roomPowerLevels, "")) levels target <
      roomPower ruma rv roomCreate (state (.roomPowerLevels, "")) levels sender

theorem removal_respects_rank_iff (defaults : ruma.roomPowerLevels (.object []) = some noLevels)
    (kind : event.eventType = .roomMember) (accepted : authCheck ruma rv event thirdParty state = .ok true)
    (read : getMembership ruma event.content = some membership) (removes : membership = .leave ∨ membership = .ban)
    (other : event.stateKey ≠ some event.sender.asStr) :
    ∃ roomCreate target levels, state (.roomCreate, "") = some roomCreate ∧ event.stateKey = some target.asStr ∧
      powerLevelsOf ruma (state (.roomPowerLevels, "")) = .ok levels ∧
      (RespectsRank ruma rv state roomCreate levels membership event.sender target ↔
        RanksTold (privilegedCreators ruma rv roomCreate) levels event.sender target) := by
  obtain ⟨roomCreate, target, change, checked, allowed⟩ := authCheck_member kind accepted
  refine ⟨roomCreate, target, change.powerLevels, checked.create, checked.stateKey, checked.powerLevels, ?_⟩
  cases read.symm.trans checked.membership
  have apart : change.sender ≠ change.targetUser := by
    rw [checked.sender, checked.targetUser]
    rintro rfl
    exact other checked.stateKey
  obtain ⟨joined, enough, outranks⟩ := removal_ranked allowed apart removes
  rw [checked.sender, checked.creators] at enough outranks
  rw [checked.targetUser] at outranks
  rw [RespectsRank, checked.senderMembership, joined, ← effectivePower_lt_iff outranks]
  cases held : state (.roomPowerLevels, "") with
  | some _ => simp [roomPower, enough]
  | none =>
    have empty : change.powerLevels = noLevels := by
      have levels := checked.powerLevels
      rw [held, powerLevelsOf, parse_eq_ok] at levels
      exact Option.some.inj (levels.symm.trans defaults)
    have creates : event.sender ∈ privilegedCreators ruma rv roomCreate := by
      by_contra plain
      rcases removes with kind | kind <;>
        simp [effectivePower, plain, empty, removalLevel, kind, noLevels, BTreeMap.get, BTreeMap.empty,
          defaultPowerLevel] at enough
    by_cases target ∈ privilegedCreators ruma rv roomCreate <;> simp_all [roomPower, effectivePower, explicitPower]

end Removal

section OnePower

variable {ruma : Ruma} {rv : RoomVersion} {roomCreate : Event} {powerLevelsEvent : Option Event} {sender : UserId}

/-- The power that `valid_membership_change` goes by for a sender who is joined. -/
def MembershipPower (ruma : Ruma) (rv : RoomVersion) (roomCreate : Event) (powerLevelsEvent : Option Event)
    (sender : UserId) (power : UserPower) : Prop :=
  ∃ change : MembershipChange, change.sender = sender ∧ change.senderMembership = .join ∧
    change.creators = privilegedCreators ruma rv roomCreate ∧
    powerLevelsOf ruma powerLevelsEvent = .ok change.powerLevels ∧ change.senderPower = some power

theorem membershipPower_iff {power : UserPower} : MembershipPower ruma rv roomCreate powerLevelsEvent sender power ↔
    (ruma.roomPowerLevels ((powerLevelsEvent.map Event.content).getD (.object []))).map
      (fun levels => effectivePower (privilegedCreators ruma rv roomCreate) levels sender) = some power := by
  rw [Option.map_eq_some_iff]
  constructor
  · rintro ⟨change, rfl, joined, creators, levels, ranked⟩
    rw [senderPower_of_joined joined, creators] at ranked
    exact ⟨_, parse_eq_ok.mp levels, Option.some.inj ranked⟩
  · rintro ⟨levels, read, rfl⟩
    exact ⟨⟨rv, sender, sender, .join, .join, .join, levels, _, .invite, false⟩, rfl, rfl, rfl, parse_eq_ok.mpr read,
      senderPower_of_joined rfl⟩

/-- An unprivileged creator has a power levels event, and both deserialisers or neither can read it. -/
def ReadAlike (ruma : Ruma) (rv : RoomVersion) (roomCreate : Event) (sender : UserId) : Option Event → Prop
  | none => sender ∈ privilegedCreators ruma rv roomCreate ∨ isCreator ruma rv roomCreate sender = false
  | some event => (ruma.roomPowerLevels event.content).isSome ↔ sender ∈ privilegedCreators ruma rv roomCreate ∨
      (deserializePowerLevelsContentFields ruma rv event.content).isSome

theorem sender_power_agrees_iff (defaults : ruma.roomPowerLevels (.object []) = some noLevels)
    (alike : ∀ content levels fields, ruma.roomPowerLevels content = some levels →
      deserializePowerLevelsContentFields ruma rv content = some fields →
      fields.users = levels.users ∧ fields.usersDefault = levels.usersDefault) :
    (∀ power, MembershipPower ruma rv roomCreate powerLevelsEvent sender power ↔
        senderPowerLevel ruma rv roomCreate powerLevelsEvent sender = .ok power) ↔
      ReadAlike ruma rv roomCreate sender powerLevelsEvent := by
  simp only [membershipPower_iff]
  unfold senderPowerLevel effectivePower ReadAlike
  cases powerLevelsEvent with
  | none =>
    by_cases creates : sender ∈ privilegedCreators ruma rv roomCreate <;>
      cases made : isCreator ruma rv roomCreate sender <;>
        simp [defaults, creates, noLevels, BTreeMap.get, BTreeMap.empty]
  | some event =>
    cases full : ruma.roomPowerLevels event.content <;>
      cases part : deserializePowerLevelsContentFields ruma rv event.content <;>
        by_cases creates : sender ∈ privilegedCreators ruma rv roomCreate <;> simp [full, part, creates, parse]
    obtain ⟨users, usersDefault⟩ := alike _ _ _ full part
    rw [PowerLevelsContentFields.getUserPower_eq, users, usersDefault]

end OnePower

namespace Sample

open Phantom.Matrix.Sample

def carol : UserId := ⟨"@carol:hs"⟩

def everyoneAtFifty : Event := event "$p" alice .roomPowerLevels (some "") [("users_default", .number 50 0)] [] []

def peers : TypeStateKey → Option Event :=
  stateOf [create, everyoneAtFifty, member "$b" bob bob "join" [] [], member "$d" carol carol "join" [] []]

def kick : Event := member "$k" bob carol "leave" ["$d"] ["$c", "$p", "$b"]

theorem peer_accepted : authCheck ruma .V11 kick none peers = .ok true := by decide +kernel

theorem peer_kicked : authCheck ruma .V11 kick none peers = .ok true ∧
    ∀ user ∈ [bob, carol], (powerLevelsOf ruma (some everyoneAtFifty)).map
      (fun levels => roomPower ruma .V11 create (some everyoneAtFifty) levels user) = .ok (.level 50) :=
  ⟨peer_accepted, by decide +kernel⟩

theorem ruma_defaults : ruma.roomPowerLevels (.object []) = some noLevels := by decide +kernel

theorem peer_removal_respects_rank_iff :
    ∃ roomCreate target levels, peers (.roomCreate, "") = some roomCreate ∧ kick.stateKey = some target.asStr ∧
      powerLevelsOf ruma (peers (.roomPowerLevels, "")) = .ok levels ∧
      (RespectsRank ruma .V11 peers roomCreate levels .leave kick.sender target ↔
        RanksTold (privilegedCreators ruma .V11 roomCreate) levels kick.sender target) :=
  removal_respects_rank_iff ruma_defaults rfl peer_accepted (by decide +kernel) (Or.inl rfl) (by decide +kernel)

theorem creator_power_differs : MembershipPower ruma .V11 create none alice (.level 0) ∧
    senderPowerLevel ruma .V11 create none alice = .ok (.level 100) := by
  rw [membershipPower_iff]
  decide +kernel

theorem bob_power_agrees_iff : (∀ power, MembershipPower ruma .V9 create none bob power ↔
    senderPowerLevel ruma .V9 create none bob = .ok power) ↔ ReadAlike ruma .V9 create bob none :=
  sender_power_agrees_iff ruma_defaults levelsCoherent.legacy_users

end Sample

end Phantom.StateRes
