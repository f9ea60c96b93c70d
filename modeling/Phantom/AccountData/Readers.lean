import Mathlib.Data.Finset.Basic
import Phantom.AccountData.Store

namespace Phantom.AccountData

open Phantom.Lib Phantom.Matrix

abbrev DirectUserIdentifier := String

abbrev DirectEventContent := BTreeMap DirectUserIdentifier (List RoomId)

/-- What is ignored of each user is not told apart. -/
structure IgnoredUserListEventContent where
  ignoredUsers : BTreeMap UserId Unit

/-- ruma's (de)serialisers: a direct content lists rooms under each name, and an ignored user list has
    its `ignored_users`. -/
structure Contents where
  directEventContent : Json → Option DirectEventContent
  directEvent : Json → Option DirectEventContent
  ofDirect : DirectEventContent → Json
  ignoredUserListEventContent : Json → Option IgnoredUserListEventContent
  direct_lists : ∀ members name text, (name, Json.string text) ∈ members → directEventContent (.object members) = none
  ignored_required : ∀ members, (∀ entry ∈ members, entry.1 ≠ "ignored_users") →
    ignoredUserListEventContent (.object members) = none

def directKey (userId : UserId) : Key := ⟨none, userId, "m.direct"⟩

def ignoredKey (userId : UserId) : Key := ⟨none, userId, "m.ignored_user_list"⟩

/-- `get_global`: the type that is asked for decides how the row is read. -/
def getGlobal {α : Type} (decode : Json → Option α) (key : Key) (tables : Tables) : Option α :=
  (getRaw key tables).bind decode

def roomsOf (content : DirectEventContent) : Finset RoomId := (content.entries.flatMap Prod.snd).toFinset

section Calls

variable (contents : Contents)

/-- `mark_direct`. The members of a `Value` are kept in the order of their names. -/
def markDirect (userId : UserId) (target : DirectUserIdentifier) (roomId : RoomId) : DataAction Unit := do
  let tables ← Action.get
  let content := (getGlobal contents.directEvent (directKey userId) tables).getD .empty
  if roomId ∈ (content.get target).getD [] then return ()
  else
    let content := content.insert target ((content.get target).getD [] ++ [roomId])
    update (directKey userId) (.object [("content", contents.ofDirect content), ("type", .string "m.direct")])

def directRooms (userId : UserId) (tables : Tables) : Finset RoomId :=
  ((getGlobal contents.directEventContent (directKey userId) tables).map roomsOf).getD ∅

structure StoredReceipt (Raw : Type) where
  userId : UserId
  count : ℕ
  event : Raw

def publicReceipts {Raw : Type} (senderUser : UserId) (ignored : Option (Option IgnoredUserListEventContent))
    (nextBatch : ℕ) (readreceipts : List (StoredReceipt Raw)) (tables : Tables) :
    List Raw × Option (Option IgnoredUserListEventContent) :=
  let receipts := readreceipts.filter fun receipt => receipt.count ≤ nextBatch
  if receipts.isEmpty then ([], ignored)
  else
    let users := ignored.getD (getGlobal contents.ignoredUserListEventContent (ignoredKey senderUser) tables)
    let receipts :=
      match users with
      | none => receipts
      | some content => receipts.filter (fun receipt => ¬ content.ignoredUsers.containsKey receipt.userId)
    (receipts.map StoredReceipt.event, some users)

end Calls

/-- The event form of a content: an object of the type and the content, in either order. -/
def EventForm (kind : String) (content json : Json) : Prop :=
  ∃ members : List (String × Json), json = .object members ∧
    members.Perm [("type", .string kind), ("content", content)]

section EventForms

variable {contents : Contents} {kind : String} {content json : Json}

theorem directEventContent_event (form : EventForm kind content json) : contents.directEventContent json = none := by
  obtain ⟨members, rfl, perm⟩ := form
  exact contents.direct_lists members "type" kind (perm.mem_iff.mpr List.mem_cons_self)

theorem ignoredUserListEventContent_event (form : EventForm kind content json) :
    contents.ignoredUserListEventContent json = none := by
  obtain ⟨members, rfl, perm⟩ := form
  refine contents.ignored_required members fun entry mem => ?_
  have named := perm.mem_iff.mp mem
  grind

variable {t : Tables}

theorem directRooms_event {user : UserId} (form : EventForm kind content json)
    (stored : getRaw (directKey user) t = some json) : directRooms contents user t = ∅ := by
  rw [directRooms, getGlobal, stored, Option.bind_some, directEventContent_event form]
  rfl

theorem publicReceipts_event {Raw : Type} {user : UserId} {nextBatch : ℕ} {readreceipts : List (StoredReceipt Raw)}
    (form : EventForm kind content json) (stored : getRaw (ignoredKey user) t = some json) :
    (publicReceipts contents user none nextBatch readreceipts t).1 =
      (readreceipts.filter fun receipt => receipt.count ≤ nextBatch).map StoredReceipt.event := by
  grind [ignoredUserListEventContent_event, publicReceipts, getGlobal]

theorem markDirect_update (user : UserId) (target : DirectUserIdentifier) (roomId : RoomId) (t : Tables) :
    (markDirect contents user target roomId t).2 = t ∨
      ∃ direct json, EventForm "m.direct" (contents.ofDirect direct) json ∧
        (markDirect contents user target roomId t).2 = (update (directKey user) json t).2 := by
  simp only [markDirect, Bind.bind, Action.get]
  split
  · exact Or.inl rfl
  · exact Or.inr ⟨_, _, ⟨_, rfl, List.Perm.swap _ _ _⟩, rfl⟩

end EventForms

section Readable

variable {Raw : Type} (contents : Contents) (calls : List Update) (user : UserId) (nextBatch : ℕ)
variable (readreceipts : List (StoredReceipt Raw))

def StoredLast (key : Key) (content : Json) : Prop :=
  ∃ json, lastStored calls key = some json ∧ EventForm key.eventType content json

/-- Sliding sync knows the rooms of the last `m.direct` content, and drops the receipts of the users of the last
    list of ignored users and no others. -/
def Readable : Prop :=
  (∀ content direct, StoredLast calls (directKey user) content → contents.directEventContent content = some direct →
    directRooms contents user (after calls) = roomsOf direct) ∧
  ∀ content ignored, StoredLast calls (ignoredKey user) content →
    contents.ignoredUserListEventContent content = some ignored →
    (publicReceipts contents user none nextBatch readreceipts (after calls)).1 =
      (readreceipts.filter fun receipt => receipt.count ≤ nextBatch ∧
        ¬ ignored.ignoredUsers.containsKey receipt.userId).map StoredReceipt.event

/-- The last `m.direct` content names no room, and none of the users with a receipt is ignored. -/
def NothingNamed : Prop :=
  (∀ content direct, StoredLast calls (directKey user) content → contents.directEventContent content = some direct →
    roomsOf direct = ∅) ∧
  ∀ content ignored, StoredLast calls (ignoredKey user) content →
    contents.ignoredUserListEventContent content = some ignored →
    ∀ receipt ∈ readreceipts, receipt.count ≤ nextBatch → ignored.ignoredUsers.containsKey receipt.userId = false

variable {contents calls user nextBatch readreceipts}

theorem direct_readable_iff {content : Json} (stored : StoredLast calls (directKey user) content)
    (direct : DirectEventContent) :
    directRooms contents user (after calls) = roomsOf direct ↔ roomsOf direct = ∅ := by
  obtain ⟨json, last, form⟩ := stored
  grind [directRooms_event, getRaw_after]

theorem receipts_readable_iff {content : Json} (stored : StoredLast calls (ignoredKey user) content)
    (ignored : IgnoredUserListEventContent) :
    (publicReceipts contents user none nextBatch readreceipts (after calls)).1 =
        (readreceipts.filter fun receipt => receipt.count ≤ nextBatch ∧
          ¬ ignored.ignoredUsers.containsKey receipt.userId).map StoredReceipt.event ↔
      ∀ receipt ∈ readreceipts, receipt.count ≤ nextBatch → ignored.ignoredUsers.containsKey receipt.userId = false := by
  obtain ⟨json, last, form⟩ := stored
  rw [publicReceipts_event form ((getRaw_after calls _).trans last)]
  have split : readreceipts.filter (fun receipt => receipt.count ≤ nextBatch ∧
      ¬ ignored.ignoredUsers.containsKey receipt.userId) =
        (readreceipts.filter fun receipt => receipt.count ≤ nextBatch).filter
          (fun receipt => ¬ ignored.ignoredUsers.containsKey receipt.userId) := by
    rw [List.filter_filter]
    apply List.filter_congr
    intro receipt _
    rw [Bool.decide_and, Bool.and_comm]
  grind [List.length_map, List.length_filter_eq_length_iff, List.filter_eq_self]

/-- Account data in its event form is readable exactly where it names nothing. -/
theorem account_data_readable_iff (contents : Contents) (calls : List Update) (user : UserId) (nextBatch : ℕ)
    (readreceipts : List (StoredReceipt Raw)) :
    Readable contents calls user nextBatch readreceipts ↔ NothingNamed contents calls user nextBatch readreceipts := by
  apply and_congr
  · apply forall_congr'
    intro content
    apply forall_congr'
    intro direct
    apply forall_congr'
    intro stored
    rw [direct_readable_iff stored direct]
  · apply forall_congr'
    intro content
    apply forall_congr'
    intro ignored
    apply forall_congr'
    intro stored
    rw [receipts_readable_iff stored ignored]

end Readable

namespace Sample

def roomIn : Json → Option RoomId
  | .string text => some ⟨text⟩
  | _ => none

def directContent : Json → Option DirectEventContent
  | .object [(user, .array rooms)] => some (BTreeMap.empty.insert user (rooms.filterMap roomIn))
  | _ => none

def ignoredContent : Json → Option IgnoredUserListEventContent
  | .object [(name, .object [(user, _)])] =>
    if name = "ignored_users" then some ⟨BTreeMap.empty.insert ⟨user⟩ ()⟩ else none
  | _ => none

def contents : Contents where
  directEventContent := directContent
  directEvent _ := none
  ofDirect _ := .object []
  ignoredUserListEventContent := ignoredContent
  direct_lists members name text mem := by
    unfold directContent
    split
    · next same =>
      cases same
      simp at mem
    · rfl
  ignored_required members missing := by
    unfold ignoredContent
    split
    · next same =>
      cases same
      exact if_neg (missing _ List.mem_cons_self)
    · rfl

def alice : UserId := ⟨"@alice:here"⟩
def bob : UserId := ⟨"@bob:here"⟩
def room : RoomId := ⟨"!room:here"⟩

def direct : Json := .object [("@bob:here", .array [.string "!room:here"])]
def ignored : Json := .object [("ignored_users", .object [("@bob:here", .object [])])]

def calls : List Update :=
  [⟨directKey alice, .object [("content", direct), ("type", .string "m.direct")]⟩,
    ⟨ignoredKey alice, .object [("content", ignored), ("type", .string "m.ignored_user_list")]⟩]

def receipts : List (StoredReceipt String) := [⟨bob, 1, "receipt"⟩]

theorem stored_direct : StoredLast calls (directKey alice) direct := ⟨_, rfl, ⟨_, rfl, .swap _ _ _⟩⟩

theorem stored_ignored : StoredLast calls (ignoredKey alice) ignored := ⟨_, rfl, ⟨_, rfl, .swap _ _ _⟩⟩

theorem stored_unreadable : StoredLast calls (directKey alice) direct ∧ StoredLast calls (ignoredKey alice) ignored ∧
      directRooms contents alice (after calls) = ∅ ∧ (contents.directEventContent direct).map roomsOf = some {room} ∧
      (publicReceipts contents alice none 1 receipts (after calls)).1 = ["receipt"] ∧
      (contents.ignoredUserListEventContent ignored).map (fun list => list.ignoredUsers.containsKey bob) = some true ∧
      ¬ Readable contents calls alice 1 receipts := by
  refine ⟨stored_direct, stored_ignored, by decide +kernel, by decide +kernel, by decide +kernel, by decide +kernel, ?_⟩
  intro readable
  have rooms := readable.1 direct _ stored_direct rfl
  exact absurd rooms (by decide +kernel)

end Sample

end Phantom.AccountData
