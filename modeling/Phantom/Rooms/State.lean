import Phantom.Rooms.StateCompressor

namespace Phantom.Rooms

open Phantom.Lib Phantom.Matrix

def recordEventState (shorteventid : ShortEventId) (shortstatehash : Option ShortStateHash) :
    StoreAction Unit :=
  match shortstatehash with
  | some shortstatehash =>
    Action.modify fun store => { store with
      eventShortstatehashes := Function.update store.eventShortstatehashes shorteventid (some shortstatehash) }
  | none => return ()

def setEventState (sha256 : List UInt8 → Digest) (eventId : EventId) (roomId : RoomId)
    (state : CompressedState) : StoreAction ShortStateHash := do
  let shorteventid ← getOrCreateShorteventid eventId
  let previous := (← Action.get).roomShortstatehashes roomId
  let (shortstatehash, alreadyExisted) ← getOrCreateShortstatehash (sha256 (delimited state))
  Action.unlessDone alreadyExisted (do
    let statesParents ← loadPrevious previous
    let (statediffnew, statediffremoved) := diffFrom statesParents state
    saveStateFromDiff shortstatehash statediffnew statediffremoved 1000000 statesParents)
  recordEventState shorteventid (some shortstatehash)
  return shortstatehash

structure Pdu where
  eventId : EventId
  roomId : RoomId
  kind : EventType
  stateKey : Option String

/-- The first entry of the key, which is the one that a new event of the key replaces. -/
def CompressedState.entryOf (state : CompressedState) (shortstatekey : ShortStateKey) :
    Option CompressedStateEvent :=
  let start := compressStateEvent shortstatekey 0
  let last := compressStateEvent shortstatekey 0xFFFFFFFFFFFFFFFF
  (CompressedState.iter (state.filter fun event => start ≤ event ∧ event ≤ last)).head?

def CompressedState.replace (state : CompressedState) (new : CompressedStateEvent) : CompressedState :=
  insert new (state.filter fun event => event.shortstatekey ≠ new.shortstatekey)

def appendToState (newPdu : Pdu) : StoreAction ShortStateHash := do
  let shorteventid ← getOrCreateShorteventid newPdu.eventId
  let previous := (← Action.get).roomShortstatehashes newPdu.roomId
  recordEventState shorteventid previous
  match newPdu.stateKey with
  | none =>
    Action.lift (.ofOption (.database s!"first event in room must be a state event: {notFoundInDatabase}") previous)
  | some stateKey =>
    let statesParents ← loadPrevious previous
    let shortstatekey ← getOrCreateShortstatekey newPdu.kind stateKey
    let shorteventid ← getOrCreateShorteventid newPdu.eventId
    let new := compressStateEvent shortstatekey shorteventid
    let replaces := statesParents.getLast?.bind fun info => info.fullState.entryOf shortstatekey
    if some new = replaces then
      Action.lift (.ofOption
        (.database s!"state event replaces itself in an empty room: {notFoundInDatabase}") previous)
    else
      let shortstatehash ← nextCount
      saveStateFromDiff shortstatehash {new} replaces.toFinset 2 statesParents
      return shortstatehash

section Entries

variable {s : CompressedState} {shortstatekey : ShortStateKey} {event : CompressedStateEvent}

theorem between_iff : (compressStateEvent shortstatekey 0 ≤ event ∧
    event ≤ compressStateEvent shortstatekey 0xFFFFFFFFFFFFFFFF) ↔ event.shortstatekey = shortstatekey := by
  have lower : compressStateEvent shortstatekey 0 ≤ event ↔ shortstatekey.toNat < event.shortstatekey.toNat ∨
        shortstatekey.toNat = event.shortstatekey.toNat ∧ 0 ≤ event.shorteventid.toNat := Prod.Lex.toLex_le_toLex
  have upper : event ≤ compressStateEvent shortstatekey 0xFFFFFFFFFFFFFFFF ↔
      event.shortstatekey.toNat < shortstatekey.toNat ∨
        event.shortstatekey.toNat = shortstatekey.toNat ∧ event.shorteventid.toNat ≤ 2 ^ 64 - 1 :=
    Prod.Lex.toLex_le_toLex
  grind [UInt64.toNat_lt, UInt64.toNat_inj]

theorem CompressedState.entryOf_some (found : s.entryOf shortstatekey = some event) :
    event ∈ s ∧ event.shortstatekey = shortstatekey := by
  have mem := List.mem_of_mem_head? found
  grind [CompressedState.mem_iter, between_iff]

theorem CompressedState.entryOf_none (missing : s.entryOf shortstatekey = none) (mem : event ∈ s) :
    event.shortstatekey ≠ shortstatekey := by
  intro same
  have empty := List.head?_eq_none_iff.mp missing
  have listed : event ∈ CompressedState.iter (s.filter fun event =>
      compressStateEvent shortstatekey 0 ≤ event ∧ event ≤ compressStateEvent shortstatekey 0xFFFFFFFFFFFFFFFF) := by
    grind [CompressedState.mem_iter, between_iff]
  rw [empty] at listed
  exact absurd listed List.not_mem_nil

end Entries

def setRoomState (roomId : RoomId) (shortstatehash : ShortStateHash) (store : Store) : Store :=
  { store with
    roomShortstatehashes := Function.update store.roomShortstatehashes roomId (some shortstatehash) }

def deleteRoomShortstatehash (roomId : RoomId) (store : Store) : Store :=
  { store with roomShortstatehashes := Function.update store.roomShortstatehashes roomId none }

/-- What dropping entries of the least-recently-used cache, or clearing it, leaves. -/
def evict (dropped : ShortStateHash → Bool) (store : Store) : Store :=
  { store with stateinfoCache := fun shortstatehash =>
      if dropped shortstatehash then none else store.stateinfoCache shortstatehash }

end Phantom.Rooms
