import Mathlib.Data.Finset.Fold
import Phantom.Lib.Bytes
import Phantom.SlidingSync.Selector

namespace Phantom.SlidingSync

open Phantom.Lib Phantom.Matrix

structure RoomDetails where
  timelineLimit : Nat
  requiredState : Finset (EventType × String)

def RoomDetails.merge (details : RoomDetails) (config : RequestDetails) : RoomDetails :=
  ⟨max details.timelineLimit config.timelineLimit, details.requiredState ∪ config.requiredState.toFinset⟩

def mergedRoomDetails (conn : Connection) (lists : List ListId) (roomId : RoomId) : RoomDetails :=
  let fromLists := lists.filterMap fun id => (conn.lists.get id).map ListRequest.roomDetails
  let subscription := (conn.subscriptions.find? fun entry => decide (entry.1 = roomId)).map Prod.snd
  (fromLists ++ subscription.toList).foldl RoomDetails.merge ⟨0, ∅⟩

section Fingerprints

variable (sha256 : List UInt8 → List UInt8)

def digestWord (digest : List UInt8) : UInt64 := fromBeBytes (digest.take 8)

def requiredStateHash (selector : EventType × String) : UInt64 :=
  digestWord (sha256 (selector.1.toString.toUTF8.data.toList ++ 0xFF :: selector.2.toUTF8.data.toList))

instance xor_commutative : Std.Commutative (α := UInt64) (· ^^^ ·) := ⟨UInt64.xor_comm⟩

instance xor_associative : Std.Associative (α := UInt64) (· ^^^ ·) := ⟨UInt64.xor_assoc⟩

def roomConfig (details : RoomDetails) : UInt64 :=
  details.requiredState.fold (· ^^^ ·) (digestWord (sha256 (toBeBytes (UInt64.ofNat details.timelineLimit))))
    (requiredStateHash sha256)

end Fingerprints

structure PayloadRange where
  since : Nat
  upTo : Nat
deriving DecidableEq, Repr

def PayloadRange.Has (range : PayloadRange) (count : Nat) : Prop := range.since < count ∧ count ≤ range.upTo

instance (range : PayloadRange) (count : Nat) : Decidable (range.Has count) :=
  inferInstanceAs (Decidable (_ ∧ _))

structure CompleteRange where
  payload : Option PayloadRange
  config : Option UInt64
deriving DecidableEq

def collectRoom (sha256 : List UInt8 → List UInt8) (conn : Connection) (windowRoom : WindowRoom) : CompleteRange :=
  let room := conn.room windowRoom.roomId
  let configHash := roomConfig sha256 (mergedRoomDetails conn windowRoom.lists windowRoom.roomId)
  let configChanged := decide (room.configHash ≠ configHash)
  let payloadIsFresh := windowRoom.payloadIsFresh room.roomsince || configChanged
  let payload := if payloadIsFresh then some ⟨room.roomsince, conn.nextBatch⟩ else none
  ⟨payload, payload.map fun _ => configHash⟩

section Collecting

variable {sha256 : List UInt8 → List UInt8} {conn : Connection} {windowRoom : WindowRoom}

theorem collectRoom_payload {range : PayloadRange} (built : (collectRoom sha256 conn windowRoom).payload = some range) :
    range = ⟨(conn.room windowRoom.roomId).roomsince, conn.nextBatch⟩ := by
  grind [collectRoom]

theorem collectRoom_stale (stale : (collectRoom sha256 conn windowRoom).payload = none) :
    windowRoom.payloadCount ≤ (conn.room windowRoom.roomId).roomsince ∧ (conn.room windowRoom.roomId).configHash =
        roomConfig sha256 (mergedRoomDetails conn windowRoom.lists windowRoom.roomId) := by
  grind [collectRoom, WindowRoom.payloadIsFresh]

end Collecting

end Phantom.SlidingSync
