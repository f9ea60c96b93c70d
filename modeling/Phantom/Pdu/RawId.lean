import Phantom.Lib.KeyOrder
import Phantom.Pdu.Count

namespace Phantom.Pdu

open Phantom.Lib

structure Id where
  shortroomid : UInt64
  shorteventid : Count
deriving DecidableEq

inductive RawId where
  | normal (raw : Bytes)
  | backfilled (raw : Bytes)

namespace RawId

def asBytes : RawId → Bytes
  | .normal raw => raw
  | .backfilled raw => raw

def shortroomid (raw : RawId) : Bytes := raw.asBytes.take 8

def shorteventid : RawId → Bytes
  | .normal raw => (raw.drop 8).take 8
  | .backfilled raw => (raw.drop 16).take 8

def fromId (id : Id) : RawId :=
  match id.shorteventid with
  | .normal count => .normal (toBeBytes id.shortroomid ++ toBeBytes count)
  | .backfilled count => .backfilled (toBeBytes id.shortroomid ++ (toBeBytes 0 ++ toBeBytes count.toUInt64))

def fromBytes (key : Bytes) : Option RawId :=
  if key.length = 16 then some (.normal key)
  else if key.length = 24 then some (.backfilled key)
  else none

def pduCount (raw : RawId) : Count := .fromUnsigned (fromBeBytes raw.shorteventid)

end RawId

def Count.rank : Count → Nat
  | .normal count => if count.toNat = 0 then 0 else 2 ^ 64 + count.toNat
  | .backfilled count => 1 + count.toUInt64.toNat

def Count.suffix : Count → Bytes
  | .normal count => toBeBytes count
  | .backfilled count => toBeBytes 0 ++ toBeBytes count.toUInt64

section Keys

variable {id other : Id} {count later : Count}

theorem asBytes_fromId (id : Id) : (RawId.fromId id).asBytes = toBeBytes id.shortroomid ++ id.shorteventid.suffix := by
  unfold RawId.fromId
  cases id.shorteventid with
  | normal count | backfilled count => rfl

@[simp] theorem shortroomid_fromId (id : Id) : (RawId.fromId id).shortroomid = toBeBytes id.shortroomid := by
  rw [RawId.shortroomid, asBytes_fromId, List.take_left' (length_toBeBytes _)]

theorem fromBytes_fromId (id : Id) : RawId.fromBytes (RawId.fromId id).asBytes = some (RawId.fromId id) := by
  unfold RawId.fromId
  cases id.shorteventid with
  | normal count | backfilled count => simp [RawId.fromBytes, RawId.asBytes]

theorem pduCount_fromId (id : Id) : (RawId.fromId id).pduCount = match id.shorteventid with
    | .normal count => .fromUnsigned count
    | .backfilled count => .fromUnsigned count.toUInt64 := by
  unfold RawId.fromId
  cases id.shorteventid with
  | normal count =>
    simp only [RawId.pduCount, RawId.shorteventid]
    rw [List.drop_left' (length_toBeBytes _), List.take_of_length_le (by simp), fromBeBytes_toBeBytes]
  | backfilled count =>
    simp only [RawId.pduCount, RawId.shorteventid]
    rw [← List.append_assoc, List.drop_left' (by simp), List.take_of_length_le (by simp), fromBeBytes_toBeBytes]

theorem suffix_lt : count.suffix < later.suffix ↔ count.rank < later.rank := by
  cases count with
  | normal left =>
    cases later with
    | normal right =>
      simp only [Count.suffix, Count.rank, toBeBytes_lt]
      split <;> split <;> omega
    | backfilled right =>
      have bound := right.toUInt64.toNat_lt
      have nonempty : [] < toBeBytes right.toUInt64 := by
        have positive : 0 < (toBeBytes right.toUInt64).length := by simp
        obtain ⟨byte, bytes, shape⟩ := List.exists_cons_of_length_pos positive
        exact List.nil_lt_cons _ _
      have zero : toBeBytes left = toBeBytes 0 ↔ left.toNat = 0 := by
        rw [toBeBytes_injective.eq_iff]
        exact ⟨fun same => by rw [same]; rfl, fun same => UInt64.toNat.inj same⟩
      have bare : toBeBytes left = toBeBytes left ++ [] := (List.append_nil _).symm
      simp only [Count.suffix, Count.rank]
      rw [bare, append_lt_append_iff (by simp), toBeBytes_lt, zero]
      grind
  | backfilled left =>
    have leftBound := left.toUInt64.toNat_lt
    cases later with
    | normal right =>
      have bare : toBeBytes right = toBeBytes right ++ [] := (List.append_nil _).symm
      simp only [Count.suffix, Count.rank]
      rw [bare, append_lt_append_iff (by simp), toBeBytes_lt]
      grind [List.not_lt_nil]
    | backfilled right =>
      grind [append_lt_append_iff, toBeBytes_lt, Count.suffix, Count.rank]

theorem asBytes_lt : (RawId.fromId id).asBytes < (RawId.fromId other).asBytes ↔
    id.shortroomid.toNat < other.shortroomid.toNat ∨
      id.shortroomid = other.shortroomid ∧ id.shorteventid.rank < other.shorteventid.rank := by
  rw [asBytes_fromId, asBytes_fromId, append_lt_append_iff (by simp), toBeBytes_lt, toBeBytes_injective.eq_iff, suffix_lt]

end Keys

end Phantom.Pdu
