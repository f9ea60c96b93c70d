import Phantom.StateRes.EventAuth.SelectedKeys

namespace Phantom.StateRes

open Phantom.Lib Phantom.Matrix

section Exposed

variable {ruma : Ruma} {rv : RoomVersion} {event : Event}

variable (create : Event) (joinRules : Option Event)
  (createKeyed : create.eventType = .roomCreate ∧ create.stateKey = some "")
  (rulesKeyed : ∀ rules, joinRules = some rules → rules.eventType = .roomJoinRules ∧ rules.stateKey = some "")

def ruledState : KeyedState where
  fetch key := if key = (.roomCreate, "") then some create
    else if key = (.roomJoinRules, "") then joinRules
    else none
  keyed {key found} held := by
    split at held
    · rename_i same
      cases held
      rw [same]
      exact createKeyed
    · split at held
      · rename_i same
        rw [same]
        exact rulesKeyed found held
      · cases held

theorem exists_namesCreate (nameable : CreateNameable ruma rv event) :
    ∃ create : Event, create.eventType = .roomCreate ∧ create.stateKey = some "" ∧
      create.content = .object [] ∧ namesCreate ruma rv event create = true := by
  unfold CreateNameable at nameable
  split at nameable
  · rename_i implied
    obtain ⟨id, derived, absent⟩ := nameable
    refine ⟨{ event with eventId := id, eventType := .roomCreate, stateKey := some "", content := .object [] },
      rfl, rfl, rfl, ?_⟩
    grind [namesCreate, roomIdDerivesFrom]
  · rename_i implied
    obtain ⟨id, mem⟩ := List.exists_mem_of_ne_nil _ nameable
    refine ⟨{ event with eventId := id, eventType := .roomCreate, stateKey := some "", content := .object [] },
      rfl, rfl, rfl, ?_⟩
    grind [namesCreate]

variable {create} in
theorem authCheck_ruledState
    (exposed : ReadsUnselectedJoinRules ruma rv event) (defaults : (ruma.roomPowerLevels (.object [])).isSome)
    (empty : create.content = .object []) (named : namesCreate ruma rv event create = true) :
    ∃ verdict, authCheck ruma rv event none (ruledState create joinRules createKeyed rulesKeyed).fetch = (do
        let _ ← joinRuleOf ruma joinRules
        .ok verdict) := by
  obtain ⟨kind, ⟨stateKey, user, keyed, parsed⟩, ⟨fields, membership, decoded, membershipRead, unlisted⟩,
    readable, _⟩ := exposed
  have read := getMembership_eq decoded readable membershipRead
  obtain ⟨invite, inviteRead⟩ := getThirdPartyInvite_isSome decoded readable
  obtain ⟨levels, levelsRead⟩ := Option.isSome_iff_exists.mp defaults
  set fetch := (ruledState create joinRules createKeyed rulesKeyed).fetch with fetch_def
  have fetchCreate : fetch (.roomCreate, "") = some create := rfl
  have fetchRules : fetch (.roomJoinRules, "") = joinRules := rfl
  have fetchLevels : fetch (.roomPowerLevels, "") = none := rfl
  have fetchMember : ∀ user, fetch (.roomMember, user) = none := fun _ => rfl
  have federate : decodeFederate create.content = some true := by
    rw [empty]
    rfl
  have notAliases : EventType.roomMember.toString ≠ "m.room.aliases" := by decide
  simp only [authCheck, kind, reduceCtorEq, if_false, fetchCreate, named, Bool.not_true, Bool.false_eq_true,
    checkInRoom, parse, federate, Outcome.ofOption_some, Outcome.ok_bind, notAliases, and_false, false_and,
    if_true, checkMember, keyed, decoded, membershipRead, Option.isNone_some, parsed, fetchLevels,
    fetchMember, fetchRules, validMembershipChange, read, inviteRead, membershipOf, powerLevelsOf,
    Option.map_none, Option.getD_none, levelsRead]
  obtain ⟨valid, vouched⟩ : ∃ valid, isUserForJoinAuthValid ruma rv none
      (privilegedCreators ruma rv create) ((((fields.userForJoinAuth ruma).bind fun _ => none).bind
        (fun mem : Event => getMembership ruma mem.content)).getD .leave)
      (fields.userForJoinAuth ruma) = .ok valid := by
    cases fields.userForJoinAuth ruma <;> exact ⟨_, rfl⟩
  simp only [vouched, Outcome.ok_bind]
  -- neither a leave nor a ban looks at the rule that was read
  let change : MembershipChange := {
    rv := rv, targetUser := user, sender := event.sender, senderMembership := .leave,
    targetMembership := membership, targetCurrentMembership := .leave, powerLevels := levels,
    creators := privilegedCreators ruma rv create, joinRule := .invite, userForJoinAuthIsValid := valid }
  cases membership with
  | leave => exact ⟨change.leaveAllowed, rfl⟩
  | ban => exact ⟨change.banAllowed, rfl⟩
  | custom name => exact ⟨false, rfl⟩
  | join | invite | knock => simp at unlisted

theorem joinRules_unselected {keys : List TypeStateKey} (exposed : ReadsUnselectedJoinRules ruma rv event)
    (selected : authTypesForEvent ruma rv event.eventType event.sender event.stateKey event.content = .ok keys) :
    (.roomJoinRules, "") ∉ keys := by
  obtain ⟨kind, ⟨stateKey, _, keyed, _⟩, ⟨fields, membership, decoded, membershipRead, unlisted⟩, _, _⟩ := exposed
  rw [authTypes_member selected kind keyed decoded membershipRead, mem_memberAuthTypes]
  grind [baseAuthTypes]

/-- The selected keys decide the check of an event exactly where its check does not come to read
    join rules that were not selected. -/
theorem selection_complete_iff (ruma : Ruma) (rv : RoomVersion) (event : Event) {keys : List TypeStateKey}
    (notCreate : event.eventType ≠ .roomCreate)
    (selected : authTypesForEvent ruma rv event.eventType event.sender event.stateKey event.content = .ok keys)
    (defaults : (ruma.roomPowerLevels (.object [])).isSome)
    (malformed : ∃ content, ruma.roomJoinRule content = none) :
    (∀ first second thirdParty other, AgreeOn rv keys first second →
      authCheck ruma rv event thirdParty first.fetch = authCheck ruma rv event other second.fetch) ↔
      ¬ ReadsUnselectedJoinRules ruma rv event := by
  constructor
  · intro complete exposed
    obtain ⟨create, kind, keyed, empty, named⟩ := exists_namesCreate exposed.create
    obtain ⟨content, malformed⟩ := malformed
    let rules : Event := { event with eventType := .roomJoinRules, stateKey := some "", content := content }
    have rulesKeyed : ∀ found, some rules = some found →
        found.eventType = .roomJoinRules ∧ found.stateKey = some "" := by
      grind
    obtain ⟨verdict, lenient⟩ := authCheck_ruledState none ⟨kind, keyed⟩ nofun exposed defaults empty named
    obtain ⟨_, strict⟩ := authCheck_ruledState (some rules) ⟨kind, keyed⟩ rulesKeyed exposed defaults empty named
    have agree : AgreeOn rv keys (ruledState create none ⟨kind, keyed⟩ nofun)
        (ruledState create (some rules) ⟨kind, keyed⟩ rulesKeyed) := by
      refine ⟨?_, fun _ => rfl⟩
      grind [joinRules_unselected, ruledState]
    have same := complete _ _ none none agree
    rw [lenient, strict] at same
    simp only [joinRuleOf, parse, rules, malformed, Outcome.ofOption_none, Outcome.fail_bind, Outcome.ok_bind] at same
    cases same
  · grind [authCheck_congr]

end Exposed

namespace Sample

open Phantom.Matrix.Sample

def keyedStateOf (events : List Event) : KeyedState where
  fetch := stateOf events
  keyed held := by simpa using List.find?_some held

def aliceJoins : Event := member "$j" alice alice "join" ["$c"] ["$c"]

def aliceLeaves : Event := member "$l" alice alice "leave" ["$j"] ["$c", "$j"]

def leaveKeys : List TypeStateKey :=
  [(.roomPowerLevels, ""), (.roomMember, alice.asStr), (.roomCreate, "")]

def malformedRules : Event := event "$r" alice .roomJoinRules (some "") [] ["$j"] ["$c", "$j"]

theorem leave_blocked_by_join_rules :
    authTypesForEvent ruma .V11 aliceLeaves.eventType aliceLeaves.sender aliceLeaves.stateKey
      aliceLeaves.content = .ok leaveKeys ∧
    AgreeOn .V11 leaveKeys (keyedStateOf [create, aliceJoins]) (keyedStateOf [create, aliceJoins, malformedRules]) ∧
    authCheck ruma .V11 aliceLeaves none (keyedStateOf [create, aliceJoins]).fetch = .ok true ∧
    authCheck ruma .V11 aliceLeaves none (keyedStateOf [create, aliceJoins, malformedRules]).fetch =
      .fail (.serdeJson "invalid RoomJoinRulesEventContent") := by
  refine ⟨by decide, ⟨?_, fun _ => rfl⟩, by decide, by decide⟩
  intro key member
  simp only [leaveKeys, List.mem_cons, List.not_mem_nil, or_false] at member
  rcases member with rfl | rfl | rfl <;> rfl

theorem selection_complete_iff_leave : (∀ first second thirdParty other, AgreeOn .V11 leaveKeys first second →
      authCheck ruma .V11 aliceLeaves thirdParty first.fetch = authCheck ruma .V11 aliceLeaves other second.fetch) ↔
      ¬ ReadsUnselectedJoinRules ruma .V11 aliceLeaves :=
  selection_complete_iff ruma .V11 aliceLeaves (by decide) (by decide) (by decide) ⟨.null, rfl⟩

end Sample

end Phantom.StateRes
