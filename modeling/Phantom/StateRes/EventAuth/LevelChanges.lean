import Phantom.StateRes.EventAuth.Levels

namespace Phantom.StateRes

open Phantom.Lib Phantom.Matrix

variable {power : Int} {old new : Option Int} (levels : PowerLevels)

/-- The greatest of `users_default` and all `users` entries. -/
def maxLevel : Int :=
  (levels.users.entries.map Prod.snd).foldl max levels.usersDefault

def userLevel (user : UserId) : Int :=
  (levels.users.get user).getD levels.usersDefault

theorem foldl_max_le {values : List Int} {start bound : Int} :
    values.foldl max start ≤ bound ↔ start ≤ bound ∧ ∀ value ∈ values, value ≤ bound := by
  induction values generalizing start with
  | nil => simp
  | cons value values ih => simp [ih, and_assoc]

theorem maxLevel_le {levels : PowerLevels} {bound : Int} : maxLevel levels ≤ bound ↔ levels.usersDefault ≤ bound ∧
      ∀ user level, levels.users.get user = some level → level ≤ bound := by
  have entries := @foldl_max_le (levels.users.entries.map Prod.snd) levels.usersDefault bound
  rw [maxLevel, entries]
  constructor
  · grind [BTreeMap.get_eq_some]
  · rintro ⟨default, bounded⟩
    refine ⟨default, ?_⟩
    intro value mem
    obtain ⟨⟨user, level⟩, entry, rfl⟩ := List.mem_map.mp mem
    exact bounded user level (BTreeMap.get_eq_some.mpr entry)

theorem userLevel_le_maxLevel (user : UserId) : userLevel levels user ≤ maxLevel levels := by
  have bounds := maxLevel_le.mp (le_refl (maxLevel levels))
  unfold userLevel
  cases held : levels.users.get user with
  | none => exact bounds.1
  | some level => exact bounds.2 user level held

theorem levelTooBig_false {level : Int} : levelTooBig (.level power) (some level) = false ↔ level ≤ power := by
  grind [UserPower.level_lt_level, levelTooBig]

def LevelWithin (power : Int) (old new : Option Int) : Prop :=
  old = new ∨ ((∀ level, old = some level → level ≤ power) ∧ ∀ level, new = some level → level ≤ power)

theorem within_of_not_tooBig (small : (levelTooBig (.level power) old || levelTooBig (.level power) new) = false) :
    LevelWithin power old new := by
  obtain ⟨oldSmall, newSmall⟩ := Bool.or_eq_false_iff.mp small
  refine Or.inr ⟨?_, ?_⟩
  · rintro level rfl
    exact levelTooBig_false.mp oldSmall
  · rintro level rfl
    exact levelTooBig_false.mp newSmall

theorem eventLevelAllowed_within
    (allowed : eventLevelAllowed (.level power) old new = true) : LevelWithin power old new := by
  unfold eventLevelAllowed at allowed
  split at allowed
  · rename_i same
    exact Or.inl same.2.2
  · exact within_of_not_tooBig (by simpa using allowed)

theorem defaultLevelAllowed_within {old new : Int} (allowed : defaultLevelAllowed (.level power) (old, new) = true) :
    LevelWithin power (some old) (some new) := by
  unfold defaultLevelAllowed at allowed
  split at allowed
  · rename_i same
    exact Or.inl (congrArg some same)
  · exact within_of_not_tooBig (by simpa using allowed)

theorem userLevelAllowed_within {isSender : Bool} (allowed : userLevelAllowed (.level power) isSender old new = true) :
    LevelWithin power old new ∧ (isSender = false → old = some power → new = old) := by
  unfold userLevelAllowed at allowed
  split at allowed
  · rename_i same
    exact ⟨Or.inl same.2.2, fun _ _ => same.2.2.symm⟩
  · grind [within_of_not_tooBig]

theorem get_eq_none_of_not_key {K V : Type} [LinearOrder K] {map : BTreeMap K V} {key : K}
    (absent : key ∉ map.keys) : map.get key = none := by
  grind [BTreeMap.get_isSome, BTreeMap.get]

/-- What `check_power_levels` guarantees between two contents, for a sender of a finite level. -/
structure ChangesWithin (sender : UserId) (power : Int) (old new : PowerLevels) : Prop where
  users : ∀ user, LevelWithin power (old.users.get user) (new.users.get user)
  peers : ∀ user level, user ≠ sender → old.users.get user = some level → power ≤ level →
    new.users.get user = some level
  events : ∀ eventType, LevelWithin power (old.events.get eventType) (new.events.get eventType)
  defaults : ∀ levels ∈ defaultLevels old new, LevelWithin power (some levels.1) (some levels.2)

variable {sender : UserId}

theorem levelChangesAllowed_within {rv : RoomVersion} {old new : PowerLevels}
    (allowed : levelChangesAllowed rv sender (.level power) old new = true) : ChangesWithin sender power old new := by
  simp only [levelChangesAllowed, Bool.and_eq_true, List.all_eq_true] at allowed
  obtain ⟨⟨⟨users, events⟩, _⟩, defaults⟩ := allowed
  have checked : ∀ user, LevelWithin power (old.users.get user) (new.users.get user) ∧
      (user ≠ sender → old.users.get user = some power → new.users.get user = old.users.get user) := by
    intro user
    by_cases listed : user ∈ old.users.keys ++ new.users.keys
    · grind [userLevelAllowed_within]
    · rw [List.mem_append, not_or] at listed
      rw [get_eq_none_of_not_key listed.1, get_eq_none_of_not_key listed.2]
      exact ⟨Or.inl rfl, fun _ _ => rfl⟩
  refine ⟨fun user => (checked user).1, ?_, ?_, ?_⟩
  · intro user level other held high
    rcases (checked user).1 with same | ⟨small, _⟩
    · rw [← same, held]
    · grind
  · intro eventType
    by_cases listed : eventType ∈ old.events.keys ++ new.events.keys
    · exact eventLevelAllowed_within (events eventType listed)
    · rw [List.mem_append, not_or] at listed
      rw [get_eq_none_of_not_key listed.1, get_eq_none_of_not_key listed.2]
      exact Or.inl rfl
  · grind [defaultLevelAllowed_within]

theorem ChangesWithin.maxLevel_le {old new : PowerLevels}
    (within : ChangesWithin sender (userLevel old sender) old new) : maxLevel new ≤ maxLevel old := by
  have own := userLevel_le_maxLevel old sender
  have bounds := StateRes.maxLevel_le.mp (le_refl (maxLevel old))
  refine StateRes.maxLevel_le.mpr ⟨?_, ?_⟩
  · rcases within.defaults (old.usersDefault, new.usersDefault) (by simp [defaultLevels]) with same | small
    · grind
    · exact (small.2 _ rfl).trans own
  · intro user level held
    rcases within.users user with same | small
    · exact bounds.2 user level (same.trans held)
    · exact (small.2 level held).trans own

end Phantom.StateRes
