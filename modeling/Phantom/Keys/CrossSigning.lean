import Phantom.Keys.Signing
import Phantom.Lib.Action

namespace Phantom.Keys

open Function Phantom.Lib Phantom.Matrix

inductive Usage where
  | master
  | selfSigning
  | userSigning
deriving DecidableEq

def Usage.what : Usage → String
  | master => "Master"
  | selfSigning => "Self signing"
  | userSigning => "User signing"

/-- The tables of keys with the id of each user's key of each usage: `userid_masterkeyid`,
    `userid_selfsigningkeyid` and `userid_usersigningkeyid`. -/
structure CrossTables extends SignTables where
  keyids : Usage × UserId → Option (UserId × String)

def CrossTables.empty : CrossTables where
  keyidKey _ := none
  counter := 0
  keychangeidUserid _ := none
  encryptedRooms _ := []
  keyids _ := none

section Upload

variable (decode : Json → Except String (List String)) (userId : UserId)

/-- Of a key that is read, `decode` gives the values of its `keys`. -/
def parseCrossSigningKey (key : Json) (what : String) : Outcome SignError String :=
  match decode key with
  | .error e => .fail (.invalidParam ("Invalid " ++ what ++ " key: " ++ e))
  | .ok [] => .fail (.invalidParam (what ++ " key contained no key."))
  | .ok [publicKey] => .ok publicKey
  | .ok _ => .fail (.invalidParam (what ++ " key contained more than one key."))

def storeKey (usage : Usage) (key : Json) (publicKey : String) (tables : CrossTables) : CrossTables :=
  { tables with
    keyidKey := update tables.keyidKey (userId, publicKey) (some (some key))
    keyids := update tables.keyids (usage, userId) (some (userId, publicKey)) }

def addKeys : List (Option Json × Usage) → Action CrossTables SignError Unit
  | [] => return ()
  | (none, _) :: keys => addKeys keys
  | (some key, usage) :: keys => do
    let publicKey ← Action.lift (parseCrossSigningKey decode key usage.what)
    Action.modify (storeKey userId usage key publicKey)
    addKeys keys

def noteUpdate (tables : CrossTables) : CrossTables :=
  let count := tables.counter + 1
  { tables with
    counter := count
    keychangeidUserid := ((tables.encryptedRooms userId).map RoomId.asStr ++ [userId.asStr]).foldl
      (fun changes of => update changes (of, count) (some userId)) tables.keychangeidUserid }

def addCrossSigningKeys (masterKey selfSigningKey userSigningKey : Option Json) (notify : Bool) :
    Action CrossTables SignError Unit := do
  addKeys decode userId [(masterKey, .master), (selfSigningKey, .selfSigning), (userSigningKey, .userSigning)]
  if notify then Action.modify (noteUpdate userId)

end Upload

/-- A key that is read and holds one public key. -/
def ValidKey (decode : Json → Except String (List String)) (key : Json) : Prop :=
  ∃ publicKey, decode key = .ok [publicKey]

def givenKeys (keys : List (Option Json × Usage)) : List Json := keys.filterMap Prod.fst

section Failures

variable (decode : Json → Except String (List String)) (userId : UserId)
variable (usage : Usage) (keys : List (Option Json × Usage)) {key : Json}

theorem addKeys_valid (valid : ValidKey decode key) : ∃ publicKey, ∀ t,
    addKeys decode userId ((some key, usage) :: keys) t =
      addKeys decode userId keys (storeKey userId usage key publicKey t) := by
  obtain ⟨publicKey, decoded⟩ := valid
  refine ⟨publicKey, fun t => ?_⟩
  simp only [addKeys, parseCrossSigningKey, decoded]
  rfl

theorem addKeys_invalid (invalid : ¬ ValidKey decode key) : ∃ error, ∀ t,
    addKeys decode userId ((some key, usage) :: keys) t = (.fail error, t) := by
  have refused : ∃ error, parseCrossSigningKey decode key usage.what = .fail error := by
    unfold parseCrossSigningKey
    split
    · exact ⟨_, rfl⟩
    · exact ⟨_, rfl⟩
    case h_3 publicKey decoded => exact absurd ⟨publicKey, decoded⟩ invalid
    · exact ⟨_, rfl⟩
  obtain ⟨error, refused⟩ := refused
  refine ⟨error, fun t => ?_⟩
  simp only [addKeys, refused]
  rfl

variable {keys} in
theorem addKeys_first {first : Json} {rest : List Json} (given : givenKeys keys = first :: rest) :
    ∃ usage later, givenKeys later = rest ∧
      addKeys decode userId keys = addKeys decode userId ((some first, usage) :: later) := by
  induction keys with
  | nil => cases given
  | cons entry keys ih =>
    obtain ⟨_ | key, usage⟩ := entry
    · exact ih given
    · simp only [givenKeys, List.filterMap_cons, List.cons.injEq] at given
      obtain ⟨rfl, rfl⟩ := given
      exact ⟨usage, keys, rfl, rfl⟩

/-- A call fails exactly where one of the keys is invalid, and an id once stored stays stored. -/
theorem addKeys_spec (t : CrossTables) :
    ((addKeys decode userId keys t).1 = .ok () ↔ ∀ key ∈ givenKeys keys, ValidKey decode key) ∧
      ∀ slot, t.keyids slot ≠ none → (addKeys decode userId keys t).2.keyids slot ≠ none := by
  induction keys generalizing t with
  | nil => exact ⟨iff_of_true rfl nofun, fun _ => id⟩
  | cons entry keys ih =>
    obtain ⟨_ | key, usage⟩ := entry
    · exact ih t
    · by_cases valid : ValidKey decode key
      · obtain ⟨publicKey, ran⟩ := addKeys_valid decode userId usage keys valid
        rw [ran t]
        refine ⟨?_, fun slot stored => (ih _).2 slot ?_⟩
        · simpa [givenKeys, valid] using (ih (storeKey userId usage key publicKey t)).1
        · simp only [storeKey, update_apply]
          split
          · simp
          · exact stored
      · obtain ⟨error, ran⟩ := addKeys_invalid decode userId usage keys valid
        rw [ran t]
        simp [givenKeys, valid]

variable {decode userId} in
theorem addCrossSigningKeys_failed {t : CrossTables} {masterKey selfSigningKey userSigningKey : Option Json}
    {notify : Bool}
    {failure : Failure SignError} {after : CrossTables} :
    addCrossSigningKeys decode userId masterKey selfSigningKey userSigningKey notify t = (.error failure, after) ↔
      addKeys decode userId [(masterKey, .master), (selfSigningKey, .selfSigning), (userSigningKey, .userSigning)] t =
        (.error failure, after) := by
  simp only [addCrossSigningKeys, Bind.bind]
  cases addKeys decode userId
      [(masterKey, .master), (selfSigningKey, .selfSigning), (userSigningKey, .userSigning)] t with
  | mk outcome stored =>
    cases outcome with
    | error other => rfl
    | ok value => cases notify <;> simp [Action.modify, pure]

end Failures

/-- A failed upload leaves every table as it was exactly where the first key of it is the invalid one:
    where the first is valid, all of them are. -/
theorem failed_upload_changes_nothing_iff (decode : Json → Except String (List String)) (userId : UserId)
    (masterKey selfSigningKey userSigningKey : Option Json) (notify : Bool) :
    (∀ tables failure after, addCrossSigningKeys decode userId masterKey selfSigningKey userSigningKey notify
        tables = (.error failure, after) → after = tables) ↔
      ∀ first rest, [masterKey, selfSigningKey, userSigningKey].filterMap id = first :: rest →
        ValidKey decode first → ∀ key ∈ rest, ValidKey decode key := by
  simp only [addCrossSigningKeys_failed]
  set keys := [(masterKey, Usage.master), (selfSigningKey, .selfSigning), (userSigningKey, .userSigning)]
  have same : [masterKey, selfSigningKey, userSigningKey].filterMap id = givenKeys keys := rfl
  rw [same]
  constructor
  · intro kept first rest given valid
    obtain ⟨usage, later, rfl, runs⟩ := addKeys_first decode userId given
    obtain ⟨publicKey, ran⟩ := addKeys_valid decode userId usage later valid
    have stored : (storeKey userId usage first publicKey .empty).keyids (usage, userId) ≠ none := by
      simp [storeKey]
    refine (addKeys_spec decode userId later (storeKey userId usage first publicKey .empty)).1.mp ?_
    cases outcome : addKeys decode userId later (storeKey userId usage first publicKey .empty) with
    | mk returned after =>
      cases returned with
      | ok value => rfl
      | error failure =>
        have unchanged := kept .empty failure after (by rw [runs, ran, outcome])
        have held := (addKeys_spec decode userId later _).2 _ stored
        rw [outcome, unchanged] at held
        exact absurd rfl held
  · intro allValid tables failure after failed
    cases given : givenKeys keys with
    | nil =>
      have fine := (addKeys_spec decode userId keys tables).1.mpr (by simp [given])
      rw [failed] at fine
      cases fine
    | cons first rest =>
      by_cases valid : ValidKey decode first
      · have fine := (addKeys_spec decode userId keys tables).1.mpr
          (by simpa [given, valid] using allValid first rest given valid)
        rw [failed] at fine
        cases fine
      · obtain ⟨usage, later, rfl, runs⟩ := addKeys_first decode userId given
        obtain ⟨error, ran⟩ := addKeys_invalid decode userId usage later valid
        rw [runs, ran] at failed
        exact (congrArg Prod.snd failed).symm

namespace Sample

def publicKeys : Json → Except String (List String)
  | .string key => .ok [key]
  | .null => .ok []
  | _ => .error "invalid type"

theorem master_key_replaced_by_failed_upload :
    let upload := addCrossSigningKeys publicKeys ⟨"@alice:hs"⟩ (some (.string "m")) (some .null) none true
      .empty
    upload.1 = .fail (.invalidParam "Self signing key contained no key.") ∧
      CrossTables.empty.keyids (.master, ⟨"@alice:hs"⟩) = none ∧
      upload.2.keyids (.master, ⟨"@alice:hs"⟩) = some (⟨"@alice:hs"⟩, "m") :=
  ⟨rfl, rfl, rfl⟩

end Sample

end Phantom.Keys
