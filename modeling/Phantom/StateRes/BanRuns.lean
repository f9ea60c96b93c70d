import Phantom.Lib.Runs
import Phantom.StateRes.EventAuth.Accepted

namespace Phantom.StateRes

open Phantom.Lib Phantom.Matrix

abbrev RoomState := TypeStateKey → Option Event

def RoomState.install (state : RoomState) (event : Event) : RoomState :=
  match event.stateKey with
  | some stateKey => Function.update state (event.eventType, stateKey) (some event)
  | none => state

/-- One `m.room.member` event accepted by `auth_check` against the state before it. -/
def MemberStep (ruma : Ruma) (rv : RoomVersion) (state : RoomState) (event : Event)
    (next : RoomState) : Prop :=
  event.eventType = .roomMember ∧
    (∃ thirdParty, authCheck ruma rv event thirdParty state = .ok true) ∧ next = state.install event

def HasMembership (ruma : Ruma) (state : RoomState) (user : UserId) (membership : MembershipState) : Prop :=
  ∃ event, state (.roomMember, user.asStr) = some event ∧ getMembership ruma event.content = some membership

/-- Infinite for privileged creators, else the `users` entry, else `users_default`. -/
def effectivePower (creators : List UserId) (levels : PowerLevels) (user : UserId) : UserPower :=
  if user ∈ creators then .infinite
  else .level ((levels.users.get user).getD levels.usersDefault)

def explicitPower (creators : List UserId) (levels : PowerLevels) (user : UserId) : Option UserPower :=
  if user ∈ creators then some .infinite else (levels.users.get user).map .level

section

variable (ruma : Ruma) (rv : RoomVersion) (state : RoomState) (event : Event) (user : UserId)

/-- A leave sent by a joined moderator who may ban, may kick and outranks the target. -/
def Unban : Prop :=
  event.stateKey = some user.asStr ∧ getMembership ruma event.content = some .leave ∧
    event.sender ≠ user ∧ HasMembership ruma state event.sender .join ∧
    ∃ roomCreate levels, state (.roomCreate, "") = some roomCreate ∧
      powerLevelsOf ruma (state (.roomPowerLevels, "")) = .ok levels ∧
      let creators := privilegedCreators ruma rv roomCreate
      .level levels.ban ≤ effectivePower creators levels event.sender ∧
      .level levels.kick ≤ effectivePower creators levels event.sender ∧
      explicitPower creators levels user < some (effectivePower creators levels event.sender)

def CreatorsFirstJoin
    : Prop :=
  event.stateKey = some user.asStr ∧ getMembership ruma event.content = some .join ∧
    ∃ roomCreate, state (.roomCreate, "") = some roomCreate ∧ event.prevEvents = [roomCreate.eventId] ∧
      isCreatorJoin ruma rv event.sender user roomCreate = .ok true

end

section Bans

variable {ruma : Ruma} {rv : RoomVersion}
variable {change : MembershipChange} {state s : RoomState} {user : UserId} {membership : MembershipState}
variable {event : Event}

theorem senderPower_of_joined (joined : change.senderMembership = .join) :
    change.senderPower = some (effectivePower change.creators change.powerLevels change.sender) := by
  grind [MembershipChange.senderIsJoined, MembershipChange.senderPower, effectivePower]

theorem targetPower_of_leave (leaves : change.targetMembership = .leave) :
    change.targetPower = explicitPower change.creators change.powerLevels change.targetUser := by
  unfold MembershipChange.targetPower explicitPower
  simp [leaves]

theorem leaveAllowed_of_banned (allowed : change.leaveAllowed = true)
    (banned : change.targetCurrentMembership = .ban) (leaves : change.targetMembership = .leave) :
    change.sender ≠ change.targetUser ∧ change.senderMembership = .join ∧
      .level change.powerLevels.ban ≤ effectivePower change.creators change.powerLevels change.sender ∧
      .level change.powerLevels.kick ≤ effectivePower change.creators change.powerLevels change.sender ∧
      explicitPower change.creators change.powerLevels change.targetUser <
        some (effectivePower change.creators change.powerLevels change.sender) := by
  unfold MembershipChange.leaveAllowed at allowed
  split at allowed
  · simp [banned] at allowed
  · rename_i ne
    split at allowed
    · cases allowed
    · rename_i passed
      simp only [banned, true_and, not_or, MembershipChange.senderIsJoined] at passed
      have joined : change.senderMembership = .join := by simpa using passed.1
      have power := senderPower_of_joined joined
      rw [power] at passed
      simp only [power, targetPower_of_leave leaves] at allowed
      have notBelow : ¬ effectivePower change.creators change.powerLevels change.sender <
          .level change.powerLevels.ban := by
        intro below
        exact passed.2 (by simp [Option.filter, below])
      have kicks : .level change.powerLevels.kick ≤
          effectivePower change.creators change.powerLevels change.sender := by
        by_contra above
        simp [Option.filter, above] at allowed
      have outranks := (of_decide_eq_true allowed).2
      exact ⟨ne, joined, not_lt.mp notBelow, kicks, outranks⟩

theorem not_joinAllowed_of_banned (banned : change.targetCurrentMembership = .ban) : change.joinAllowed = false := by
  simp [MembershipChange.joinAllowed, banned]

theorem not_inviteAllowed_of_banned {invite : Option Json}
    {thirdParty : Option Event} (banned : change.targetCurrentMembership = .ban) :
    change.inviteAllowed ruma invite thirdParty = false := by
  unfold MembershipChange.inviteAllowed
  split <;> simp [banned]

theorem knockAllowed_sender (allowed : change.knockAllowed = true) :
    change.sender = change.targetUser ∧ change.senderMembership ≠ .ban := by
  grind [MembershipChange.knockAllowed]

theorem membershipOf_of_has (has : HasMembership ruma s user membership) :
    membershipOf ruma (s (.roomMember, user.asStr)) = .ok membership := by
  obtain ⟨event, held, read⟩ := has
  rw [held]
  exact parse_eq_ok.mpr read

theorem install_other {key : TypeStateKey}
    (other : ∀ stateKey, event.stateKey = some stateKey → (event.eventType, stateKey) ≠ key) :
    s.install event key = s key := by
  unfold RoomState.install
  cases keyed : event.stateKey with
  | none => rfl
  | some stateKey => exact Function.update_of_ne (other stateKey keyed).symm _ _

theorem install_member (kind : event.eventType = .roomMember) (keyed : event.stateKey = some user.asStr)
    (read : getMembership ruma event.content = some membership) :
    HasMembership ruma (s.install event) user membership := ⟨event, by simp [RoomState.install, keyed, kind], read⟩

theorem ban_step {next : RoomState}
    (banned : HasMembership ruma s user .ban) (step : MemberStep ruma rv s event next) :
    HasMembership ruma next user .ban ∨ (Unban ruma rv s event user ∨ CreatorsFirstJoin ruma rv s event user) := by
  obtain ⟨kind, ⟨thirdParty, accepted⟩, rfl⟩ := step
  obtain ⟨roomCreate, target, change, checked, allowed⟩ := authCheck_member kind accepted
  by_cases aimed : target = user
  · subst aimed
    have current : change.targetCurrentMembership = .ban :=
      Except.ok.inj (checked.currentMembership.symm.trans (membershipOf_of_has banned))
    unfold MembershipChange.Allowed at allowed
    split at allowed
    · rename_i joins
      rcases allowed with allowed | ⟨sole, created⟩
      · rw [not_joinAllowed_of_banned current] at allowed
        cases allowed
      · rw [checked.version, checked.sender, checked.targetUser] at created
        exact Or.inr (Or.inr ⟨checked.stateKey, by rw [checked.membership, joins], roomCreate,
          checked.create, sole, created⟩)
    · grind [not_inviteAllowed_of_banned]
    · rename_i leaves
      have moderated := leaveAllowed_of_banned allowed current leaves
      rw [checked.sender, checked.targetUser, checked.creators] at moderated
      obtain ⟨ne, joined, bans, kicks, outranks⟩ := moderated
      have senderJoined : HasMembership ruma s event.sender .join := by
        have read := checked.senderMembership
        rw [joined] at read
        cases held : s (.roomMember, event.sender.asStr) with
        | none => rw [held] at read; cases read
        | some mem => rw [held] at read; exact ⟨mem, held, parse_eq_ok.mp read⟩
      exact Or.inr (Or.inl ⟨checked.stateKey, by rw [checked.membership, leaves], ne,
        senderJoined, roomCreate, change.powerLevels, checked.create, checked.powerLevels, bans, kicks, outranks⟩)
    · rename_i bans
      exact Or.inl (install_member kind checked.stateKey (by rw [checked.membership, bans]))
    · obtain ⟨same, free⟩ := knockAllowed_sender allowed
      rw [checked.sender, checked.targetUser] at same
      have read := checked.senderMembership
      rw [same, membershipOf_of_has banned] at read
      exact absurd (Except.ok.inj read).symm free
    · exact allowed.elim
  · obtain ⟨mem, held, read⟩ := banned
    refine Or.inl ⟨mem, ?_, read⟩
    rw [install_other ?_, held]
    intro stateKey keyed same
    have keys : stateKey = user.asStr := (Prod.mk.inj same).2
    rw [checked.stateKey] at keyed
    apply aimed
    have text : target.asStr = user.asStr := (Option.some.inj keyed).trans keys
    cases target
    cases text
    rfl

/-- A ban holds along every run of accepted member events until a qualified moderator lifts it
    or the creator makes the first join of the room. -/
theorem bans_are_sticky {first last : RoomState} {events : List Event} {user : UserId}
    (run : Run (MemberStep ruma rv) first events last) (banned : HasMembership ruma first user .ban) :
    HasMembership ruma last user .ban ∨ ∃ before event after state, events = before ++ event :: after ∧
        Run (MemberStep ruma rv) first before state ∧ HasMembership ruma state user .ban ∧
        (Unban ruma rv state event user ∨ CreatorsFirstJoin ruma rv state event user) :=
  Run.holds_until (fun state => HasMembership ruma state user .ban)
    (fun _ _ _ held step => ban_step held step) run banned

end Bans

namespace Sample

open Phantom.Matrix.Sample

def bannedState : RoomState :=
  stateOf [create, member "$j" alice alice "join" ["$c"] [], member "$b" alice bob "ban" ["$j"] ["$j"]]

def liftBan : Event := member "$l" alice bob "leave" ["$b"] ["$j", "$b"]

theorem bans_are_sticky_lifted : HasMembership ruma bannedState bob .ban ∧
    (HasMembership ruma (bannedState.install liftBan) bob .ban ∨
      ∃ before event after state, [liftBan] = before ++ event :: after ∧
        Run (MemberStep ruma .V12) bannedState before state ∧ HasMembership ruma state bob .ban ∧
        (Unban ruma .V12 state event bob ∨ CreatorsFirstJoin ruma .V12 state event bob)) := by
  have banned : HasMembership ruma bannedState bob .ban := ⟨_, rfl, by decide⟩
  have lifted : MemberStep ruma .V12 bannedState liftBan (bannedState.install liftBan) :=
    ⟨rfl, ⟨none, by decide⟩, rfl⟩
  exact ⟨banned, bans_are_sticky (.cons lifted (.nil _)) banned⟩

end Sample

end Phantom.StateRes
