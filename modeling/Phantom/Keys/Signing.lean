import Phantom.Lib.Journal
import Phantom.Lib.LastWins
import Phantom.Matrix.Event

namespace Phantom.Keys

open Phantom.Lib Phantom.Matrix
open Phantom.Lib.Json (member)

variable {name : String} {json value : Json}

/-- `Map::insert`. -/
def insertMember (name : String) (value : Json) : Json → Json
  | .object members => .object (members.filter (fun entry => entry.1 ≠ name) ++ [(name, value)])
  | json => json

def IsObject : Json → Prop
  | .object _ => True
  | _ => False

theorem isObject_object (members : List (String × Json)) : IsObject (.object members) := True.intro

theorem isObject_of_member (found : member name json = some value) : IsObject json := by
  cases json with
  | object members => exact True.intro
  | _ => cases found

theorem member_insertMember_self (object : IsObject json) :
    member name (insertMember name value json) = some value := by
  cases json with
  | object members =>
    rw [insertMember, member, lastSome_concat, if_pos rfl]
    rfl
  | _ => cases object

theorem member_insertMember_ne {other : String} (different : other ≠ name) :
    member other (insertMember name value json) = member other json := by
  cases json with
  | object members =>
    rw [insertMember, member, lastSome_concat, if_neg (Ne.symm different), Option.none_or, member]
    induction members using List.reverseRecOn with
    | nil => rfl
    | append_singleton members entry ih =>
      grind [lastSome_concat]
  | _ => rfl

structure Sign where
  targetId : UserId
  keyId : String
  signature : String × String
  senderId : UserId
deriving DecidableEq

inductive SignError where
  | invalidParam (message : String)
  | database (message : String)
deriving DecidableEq

namespace Sign

variable (call : Sign)

def key : UserId × String := (call.targetId, call.keyId)

def slot : String × String := (call.senderId.asStr, call.signature.1)

def signed (own : Json) : Json := insertMember call.signature.1 (.string call.signature.2) own

/-- The key with the signature in. A row that is not JSON is `some none`. -/
def edited : Option (Option Json) → Except SignError Json
  | none => .error (.invalidParam "Tried to sign nonexistent key")
  | some none => .error (.database "key in keyid_key is invalid")
  | some (some key) =>
    match member "signatures" key with
    | none => .error (.database "key in keyid_key has no signatures field")
    | some (.object signatures) =>
      match (member call.senderId.asStr (.object signatures)).getD (.object []) with
      | .object own => .ok (insertMember "signatures"
          (insertMember call.senderId.asStr (call.signed (.object own)) (.object signatures)) key)
      | _ => .error (.database "signatures in keyid_key for a user is invalid.")
    | some _ => .error (.database "key in keyid_key has invalid signatures field.")

end Sign

def signatureOf (slot : String × String) (key : Json) : Option Json :=
  ((member "signatures" key).bind (member slot.1)).bind (member slot.2)

section Edits

variable {call : Sign} {row : Option (Option Json)} {key : Json} {slot : String × String}

theorem edited_eq_ok (accepted : call.edited row = .ok key) : ∃ old signatures own, row = some (some old) ∧
    member "signatures" old = some (.object signatures) ∧
    (member call.senderId.asStr (.object signatures)).getD (.object []) = .object own ∧
    key = insertMember "signatures" (insertMember call.senderId.asStr (call.signed (.object own))
      (.object signatures)) old := by
  unfold Sign.edited at accepted
  grind

theorem signatureOf_edited_self (accepted : call.edited row = .ok key) :
    signatureOf call.slot key = some (.string call.signature.2) := by
  grind [edited_eq_ok, member_insertMember_self, isObject_of_member, isObject_object, signatureOf, Sign.slot, Sign.signed]

theorem signatureOf_edited_ne {old : Json} (accepted : call.edited (some (some old)) = .ok key)
    (different : slot ≠ call.slot) :
    signatureOf slot key = signatureOf slot old := by
  obtain ⟨_, signatures, own, same, found, mine, rfl⟩ := edited_eq_ok accepted
  cases same
  rw [signatureOf, signatureOf, member_insertMember_self (isObject_of_member found), found, Option.bind_some,
    Option.bind_some]
  by_cases sender : slot.1 = call.senderId.asStr
  · have name : slot.2 ≠ call.signature.1 := fun equal => different (Prod.ext sender equal)
    rw [sender, member_insertMember_self (isObject_object _), Option.bind_some, Sign.signed,
      member_insertMember_ne name, ← mine]
    cases member call.senderId.asStr (.object signatures) with
    | none | some value => rfl
  · rw [member_insertMember_ne sender]

end Edits

/-- The keys by user and id, the counter of the server, the changes noted for rooms and users, and the encrypted
    rooms that
    a user is in. -/
structure SignTables where
  keyidKey : UserId × String → Option (Option Json)
  counter : ℕ
  keychangeidUserid : String × ℕ → Option UserId
  encryptedRooms : UserId → List RoomId

inductive SignReport where
  | looked (call : Sign) (row : Option (Option Json))
  | put (call : Sign) (key : Json)
  | drew
  | listed
  | noted (changeId : String × ℕ) (userId : UserId)

def signJournal : Journal SignReport SignTables where
  record tables
    | .looked _ _ | .listed => tables
    | .put call key => { tables with keyidKey := Function.update tables.keyidKey call.key (some (some key)) }
    | .drew => { tables with counter := tables.counter + 1 }
    | .noted changeId userId =>
      { tables with keychangeidUserid := Function.update tables.keychangeidUserid changeId (some userId) }
  Legal past tables
    | .looked call row => past = [] ∧ row = tables.keyidKey call.key
    | .put call key => ∃ row, past = [.looked call row] ∧ call.edited row = .ok key
    | .drew | .listed | .noted _ _ => ∃ call row key more, past = .looked call row :: .put call key :: more

abbrev SignTask := Task Unit SignReport SignTables

def enter (report : SignReport) : SignTask Unit := Task.write [report] fun tables => signJournal.record tables report

def noteChanges (userId : UserId) (count : ℕ) : List RoomId → SignTask Unit
  | [] => enter (.noted (userId.asStr, count) userId)
  | roomId :: rooms => do
    enter (.noted (roomId.asStr, count) userId)
    noteChanges userId count rooms

def markDeviceKeyUpdate (userId : UserId) : SignTask Unit := do
  let count ← .step (fun _ _ tables => some ([.drew], signJournal.record tables .drew))
    (fun _ tables => .done (tables.counter + 1))
  let rooms ← Task.observe (fun _ => [.listed]) fun tables => tables.encryptedRooms userId
  noteChanges userId count rooms

/-- The key is read in one step and written in another, without a lock around them. -/
def signKey (call : Sign) : SignTask (Except SignError Unit) := do
  let row ← Task.observe (fun tables => [.looked call (tables.keyidKey call.key)])
    (fun tables => tables.keyidKey call.key)
  match call.edited row with
  | .error error => return .error error
  | .ok key =>
    enter (.put call key)
    markDeviceKeyUpdate call.targetId
    return .ok ()

end Phantom.Keys
