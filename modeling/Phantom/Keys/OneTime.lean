import Phantom.Accounts.Tokens
import Phantom.Lib.JsonText
import Phantom.Lib.Utf8

namespace Phantom.Keys

open Phantom.Lib Phantom.Matrix Phantom.Accounts

/-- `OneTimeKeyAlgorithm`. Any text names one. -/
structure OneTimeKeyAlgorithm where
  asStr : String

instance algorithmOrder : LinearOrder OneTimeKeyAlgorithm :=
  LinearOrder.lift' OneTimeKeyAlgorithm.asStr fun left right same => by cases left; cases right; cases same; rfl

/-- `KeyId<OneTimeKeyAlgorithm, OneTimeKeyName>`: the algorithm ends at the first colon. Algorithms that JSON
    does not write as they are are left out. -/
structure OneTimeKeyId where
  algorithm : OneTimeKeyAlgorithm
  keyName : String
  colonFree : ':' ∉ algorithm.asStr.toList
  plain : Plain algorithm.asStr.toList
deriving DecidableEq

def OneTimeKeyId.chars (kid : OneTimeKeyId) : List Char := kid.algorithm.asStr.toList ++ ':' :: kid.keyName.toList

def OneTimeKeyId.toJson (kid : OneTimeKeyId) : Bytes := utf8 (jsonString kid.chars)

/-- `serde_json::from_slice`, which reads back what `to_string` writes. -/
structure Serde where
  fromSlice : Bytes → Option OneTimeKeyId
  fromSlice_toJson : ∀ kid, fromSlice kid.toJson = some kid

def separator : UInt8 := 0xFF

def deviceStart (device : UserDeviceId) : Bytes :=
  utf8 device.userId.asStr.toList ++ separator :: (utf8 device.deviceId.asStr.toList ++ [separator])

def oneTimeKeyRow (device : UserDeviceId) (kid : OneTimeKeyId) : Bytes := deviceStart device ++ kid.toJson

def claimStart (device : UserDeviceId) (algorithm : OneTimeKeyAlgorithm) : Bytes :=
  deviceStart device ++ utf8 ('"' :: (algorithm.asStr.toList ++ [':']))

/-- The tables of the one-time keys, the counter of the server and who holds the lock of a user. A row is kept
    under its bytes. -/
structure Tables (Raw : Type) where
  counter : ℕ
  userdeviceidMetadata : UserDeviceId → Bool
  onetimekeyidOnetimekeys : BTreeMap Bytes Raw
  useridLastonetimekeyupdate : UserId → Option ℕ
  oneTimeKeyLocks : UserId → Option ℕ

/-- What is remembered: the row of a key is written, a claim finds a key and removes its row, the rows are counted. -/
inductive Report (Raw : Type) where
  | uploaded (device : UserDeviceId) (kid : OneTimeKeyId) (value : Raw)
  | found (device : UserDeviceId) (kid : OneTimeKeyId) (value : Raw)
  | claimed (device : UserDeviceId) (algorithm : OneTimeKeyAlgorithm) (kid : OneTimeKeyId) (value : Raw)
  | counted (device : UserDeviceId) (counts : BTreeMap OneTimeKeyAlgorithm ℕ)

inductive Answer (Raw : Type) where
  | added
  | noMetadata
  | taken (kid : OneTimeKeyId) (value : Raw)
  | notFound
  | counts (counts : BTreeMap OneTimeKeyAlgorithm ℕ)
  | panicked
deriving DecidableEq

section Tables

variable {Raw : Type}

namespace Tables

def start (metadata : UserDeviceId → Bool) : Tables Raw := ⟨0, metadata, .empty, fun _ => none, fun _ => none⟩

def putRow (key : Bytes) (value : Raw) (tables : Tables Raw) : Tables Raw :=
  { tables with onetimekeyidOnetimekeys := tables.onetimekeyidOnetimekeys.insert key value }

def removeRow (key : Bytes) (tables : Tables Raw) : Tables Raw :=
  { tables with onetimekeyidOnetimekeys := tables.onetimekeyidOnetimekeys.erase key }

def counted (tables : Tables Raw) : Tables Raw := { tables with counter := tables.counter + 1 }

variable (userId : UserId)

def putUpdate (count : ℕ) (tables : Tables Raw) : Tables Raw :=
  { tables with useridLastonetimekeyupdate := Function.update tables.useridLastonetimekeyupdate userId (some count) }

def lock (job : ℕ) (tables : Tables Raw) : Tables Raw :=
  { tables with oneTimeKeyLocks := Function.update tables.oneTimeKeyLocks userId (some job) }

def unlock (tables : Tables Raw) : Tables Raw :=
  { tables with oneTimeKeyLocks := Function.update tables.oneTimeKeyLocks userId none }

/-- `raw_stream_prefix`. -/
def rawStream (start : Bytes) (tables : Tables Raw) : List (Bytes × Raw) :=
  (tables.onetimekeyidOnetimekeys.seek start).takeWhile fun entry => decide (start <+: entry.1)

end Tables

def unquote (text : List Char) : Option (List Char) :=
  match text with
  | '"' :: rest => if rest.getLast? = some '"' then some rest.dropLast else none
  | _ => none

def deviceKeyId (key : Bytes) : Option (List Char) := (key.splitOn separator)[2]?.bind decodeUtf8 >>= unquote

def keyAlgorithm (text : List Char) : Option OneTimeKeyAlgorithm :=
  if ':' ∈ text then some ⟨String.ofList (text.takeWhile (· ≠ ':'))⟩ else none

def maxUInt : ℕ := 2 ^ 53 - 1

def countKey (counts : BTreeMap OneTimeKeyAlgorithm ℕ) (algorithm : OneTimeKeyAlgorithm) :
    BTreeMap OneTimeKeyAlgorithm ℕ :=
  counts.insert algorithm (min ((counts.get algorithm).getD 0 + 1) maxUInt)

/-- The keys are counted by algorithm. A row that cannot be read is passed over; a text that is no key id is a panic. -/
def algorithmCounts (rows : List (Bytes × Raw)) : Option (BTreeMap OneTimeKeyAlgorithm ℕ) :=
  (rows.filterMap fun row => deviceKeyId row.1).foldlM
  (fun counts text => (keyAlgorithm text).map (countKey counts)) .empty

end Tables

abbrev KeyTask (Raw : Type) := Task Unit (Report Raw) (Tables Raw)

section Calls

variable {Raw : Type} (serde : Serde)

def nextCount : KeyTask Raw ℕ :=
  .step (fun _ _ tables => some ([], tables.counted)) fun _ tables => .done (tables.counter + 1)

def acquire (userId : UserId) : KeyTask Raw Unit :=
  .step (fun job _ tables => if tables.oneTimeKeyLocks userId = none then some ([], tables.lock userId job) else none)
    (fun _ _ => .done ())

variable (device : UserDeviceId)

def addOneTimeKey (kid : OneTimeKeyId) (value : Raw) : KeyTask Raw (Answer Raw) := do
  let exists_ ← Task.read fun tables => tables.userdeviceidMetadata device
  if exists_ then
    Task.write [.uploaded device kid value] (Tables.putRow (oneTimeKeyRow device kid) value)
    let count ← nextCount
    Task.write [] (Tables.putUpdate device.userId count)
    return .added
  else
    return .noMetadata

def rowKeyId (key : Bytes) : Option OneTimeKeyId := (key.splitOn separator).getLast?.bind serde.fromSlice

def foundReport (row : Option (Bytes × Raw)) : List (Report Raw) :=
  match row with
  | some row => ((rowKeyId serde row.1).map fun kid => Report.found device kid row.2).toList
  | none => []

variable (algorithm : OneTimeKeyAlgorithm)

def removeClaimed (row : Bytes × Raw) :
    KeyTask Raw (Answer Raw) :=
  match rowKeyId serde row.1 with
  | some kid => do
    Task.write [.claimed device algorithm kid row.2] (Tables.removeRow row.1)
    return .taken kid row.2
  | none => do
    Task.write [] (Tables.removeRow row.1)
    return .panicked

def claimFirst : KeyTask Raw (Answer Raw) := do
  let first ← Task.observe
    (fun tables => foundReport serde device (tables.rawStream (claimStart device algorithm)).head?)
    (fun tables => (tables.rawStream (claimStart device algorithm)).head?)
  match first with
  | some row => removeClaimed serde device algorithm row
  | none => return .notFound

def takeOneTimeKey : KeyTask Raw (Answer Raw) := do
  acquire device.userId
  let count ← nextCount
  Task.write [] (Tables.putUpdate device.userId count)
  let answer ← claimFirst serde device algorithm
  Task.write [] (Tables.unlock device.userId)
  return answer

def countOneTimeKeys : KeyTask Raw (Answer Raw) := do
  let counts ← Task.observe
    (fun tables => ((algorithmCounts (tables.rawStream (deviceStart device))).map (Report.counted device)).toList)
    (fun tables => algorithmCounts (tables.rawStream (deviceStart device)))
  match counts with
  | some counts => return .counts counts
  | none => return .panicked

inductive Call (Raw : Type) where
  | add (device : UserDeviceId) (kid : OneTimeKeyId) (value : Raw)
  | take (device : UserDeviceId) (algorithm : OneTimeKeyAlgorithm)
  | count (device : UserDeviceId)
deriving DecidableEq

def Call.task : Call Raw → KeyTask Raw (Answer Raw)
  | add device kid value => addOneTimeKey device kid value
  | take device algorithm => takeOneTimeKey serde device algorithm
  | count device => countOneTimeKeys device

end Calls

end Phantom.Keys
