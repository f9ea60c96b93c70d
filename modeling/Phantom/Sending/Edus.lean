import Mathlib.Data.Finset.Card
import Phantom.Lib.KeyOrder
import Phantom.Lib.Runs
import Phantom.Matrix.Event

namespace Phantom.Sending

open Phantom.Lib Phantom.Matrix

/-- The rows of a table in the order of the counts in their keys. -/
structure Counted (α : Type) where
  rows : List (ℕ × α)
  ascending : rows.Pairwise fun row later => row.1 ≤ later.1

def Counted.between {α : Type} (table : Counted α) (since : ℕ × ℕ) : List (ℕ × α) :=
  (table.rows.filter fun row => since.1 < row.1).takeWhile fun row => row.1 ≤ since.2

/-- What `select_edus` reads for a server. The content of a row is `none` where it cannot be read. -/
structure Sources (Receipt Presence : Type) where
  latestEducount : ℕ
  currentCount : ℕ
  allowOutgoingReadReceipts : Bool
  allowOutgoingPresence : Bool
  serverRooms : List RoomId
  userIsLocal : UserId → Bool
  serverSeesUser : UserId → Bool
  keychangeidUserid : RoomId → Counted UserId
  readreceiptidReadreceipt : RoomId → Counted (UserId × Option Receipt)
  presenceidPresence : Counted (UserId × Option Presence)

inductive Edu (Receipt Presence : Type) where
  | deviceListUpdate (userId : UserId)
  | receipt (receipts : List (RoomId × List (UserId × Receipt)))
  | presence (updates : List (UserId × Presence))
deriving DecidableEq

def selectReceiptLimit : ℕ := 256

section Collect

variable {α : Type}

def assign (userId : UserId) (value : α) (map : List (UserId × α)) : List (UserId × α) :=
  if userId ∈ map.map Prod.fst then map.map fun entry => if entry.1 = userId then (userId, value) else entry
  else map ++ [(userId, value)]

/-- A loop over rows that notes the highest count, passes over the rows without a value and stops at a limit. -/
def collect (limit : ℕ) : List (ℕ × UserId × Option α) → List (UserId × α) → ℕ → List (UserId × α) × ℕ
  | [], taken, highest => (taken, highest)
  | (count, _, none) :: rest, taken, highest => collect limit rest taken (max highest count)
  | (count, userId, some value) :: rest, taken, highest =>
    if limit ≤ (assign userId value taken).length then (assign userId value taken, max highest count)
    else collect limit rest (assign userId value taken) (max highest count)

def shownRows (shown : UserId → Bool) (rows : List (ℕ × UserId × Option α)) : List (ℕ × UserId × Option α) :=
  rows.map fun row => (row.1, row.2.1, if shown row.2.1 then row.2.2 else none)

end Collect

structure RoomScan (Receipt : Type) where
  rest : List (ℕ × UserId × Option Receipt)
  read : List (UserId × Receipt)

/-- The scans of the rooms run at the same time and share a counter, here with what it has counted. -/
structure ReceiptScan (Receipt : Type) where
  counted : List (RoomId × UserId)
  highest : ℕ
  rooms : RoomId → RoomScan Receipt

/-- One turn of `select_edus_receipts_room`. -/
def ReceiptScan.readNext {Receipt : Type} (scan : ReceiptScan Receipt) (roomId : RoomId) : Option (ReceiptScan Receipt) :=
  match (scan.rooms roomId).rest with
  | [] => none
  | (count, _, none) :: rest =>
    some ⟨scan.counted, max scan.highest count, Function.update scan.rooms roomId ⟨rest, (scan.rooms roomId).read⟩⟩
  | (count, userId, some receipt) :: rest =>
    let read := assign userId receipt (scan.rooms roomId).read
    if userId ∈ (scan.rooms roomId).read.map Prod.fst then
      some ⟨scan.counted, max scan.highest count, Function.update scan.rooms roomId ⟨rest, read⟩⟩
    else
      some ⟨scan.counted ++ [(roomId, userId)], max scan.highest count,
        Function.update scan.rooms roomId ⟨if selectReceiptLimit - 1 ≤ scan.counted.length then [] else rest, read⟩⟩

namespace Sources

variable {Receipt Presence : Type} (sources : Sources Receipt Presence)

def batch : ℕ × ℕ := (sources.latestEducount, sources.currentCount)

def receiptRows (roomId : RoomId) : List (ℕ × UserId × Option Receipt) :=
  shownRows sources.userIsLocal ((sources.readreceiptidReadreceipt roomId).between sources.batch)

def startScan : ReceiptScan Receipt := ⟨[], sources.latestEducount, fun roomId => ⟨sources.receiptRows roomId, []⟩⟩

/-- The scans of the rooms are over after these turns. -/
def Scanned (turns : List RoomId) (scan : ReceiptScan Receipt) : Prop :=
  Run (fun scan roomId next => roomId ∈ sources.serverRooms ∧ scan.readNext roomId = some next)
    sources.startScan turns scan ∧
  ∀ roomId ∈ sources.serverRooms, (scan.rooms roomId).rest = []

end Sources

inductive Update (Receipt Presence : Type) where
  | deviceChange (roomId : RoomId) (userId : UserId)
  | receipt (roomId : RoomId) (userId : UserId) (content : Option Receipt)
  | presence (userId : UserId) (content : Option Presence)

namespace Sources

variable {Receipt Presence : Type} (sources : Sources Receipt Presence)

end Sources

end Phantom.Sending
