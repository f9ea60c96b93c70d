import Phantom.Lib.Flaky
import Phantom.Rooms.State

namespace Phantom.Rooms.Faulty

open Phantom.Lib Phantom.Matrix

inductive Operation where
  | putCount
  | getShorteventid
  | putShorteventid
  | putEventid
  | getShortstatekey
  | putShortstatekey
  | putStatekey
  | getShortstatehash
  | putShortstatehash
  | getStatediff
  | putStatediff
  | getRoomShortstatehash
  | putRoomShortstatehash
  | removeRoomShortstatehash
  | putEventShortstatehash
deriving DecidableEq, Repr

abbrev FaultyAction := FlakyAction Store Error

def storageError : Error := .database "IO error"

def missing : Error := .database notFoundInDatabase

def text : Error → String
  | .arithmetic message => message
  | .database message => message

/-- `Result::expect`. -/
def expectOk {α : Type} (message : String) (action : FaultyAction α) : FaultyAction α := fun state =>
  match action state with
  | (.error (.err _), after) => (.error (.panic message), after)
  | other => other

/-- `Result` as a value: only a panic goes through. -/
def result {α : Type} (action : FaultyAction α) : FaultyAction (Except Error α) := fun state =>
  match action state with
  | (.ok value, after) => (.ok (.ok value), after)
  | (.error (.err error), after) => (.ok (.error error), after)
  | (.error failure, after) => (.error failure, after)

section Saves

variable (faults : Faults Operation)

def lookup {α : Type} (kind : Operation) (row : Store → Option α) : FaultyAction (Option α) :=
  (Flaky.readRow faults kind storageError missing row).attempt

def put (kind : Operation) (change : Store → Store) : FaultyAction Unit := do
  let _ ← (Flaky.write faults kind storageError change).attempt
  return ()

def nextCount : FaultyAction UInt64 := do
  let count ← Flaky.within Rooms.nextCount
  Flaky.write faults .putCount storageError id
  return count

def getOrCreateShort (kind : Operation) (recorded : Store → Option ShortId)
    (record : ShortId → FaultyAction Unit) : FaultyAction (ShortId × Bool) := do
  match ← lookup faults kind recorded with
  | some short => return (short, true)
  | none =>
    let short ← expectOk "the counter is available" (nextCount faults)
    record short
    return (short, false)

def getOrCreateShorteventid (eventId : EventId) : FaultyAction ShortEventId := do
  let (short, _) ← getOrCreateShort faults .getShorteventid (fun store => store.shorteventids eventId)
    (fun short => do
      put faults .putShorteventid fun store => { store with
        shorteventids := Function.update store.shorteventids eventId (some short) }
      put faults .putEventid fun store => { store with
        eventids := Function.update store.eventids short (some eventId) })
  return short

def getOrCreateShortstatekey (eventType : EventType) (stateKey : String) : FaultyAction ShortStateKey := do
  let (short, _) ← getOrCreateShort faults .getShortstatekey
    (fun store => store.shortstatekeys (eventType, stateKey))
    (fun short => do
      put faults .putShortstatekey fun store => { store with
        shortstatekeys := Function.update store.shortstatekeys (eventType, stateKey) (some short) }
      put faults .putStatekey fun store => { store with
        statekeys := Function.update store.statekeys short (some (eventType, stateKey)) })
  return short

def getOrCreateShortstatehash (stateHash : Digest) : FaultyAction (ShortStateHash × Bool) :=
  getOrCreateShort faults .getShortstatehash (fun store => store.shortstatehashes stateHash)
    (fun short => put faults .putShortstatehash fun store => { store with
      shortstatehashes := Function.update store.shortstatehashes stateHash (some short) })

variable (shortstatehash : ShortStateHash)

def getStatediff : FaultyAction StateDiff := do
  let value ← (Flaky.readRow faults .getStatediff storageError missing
      (fun store => store.statediffs shortstatehash)).mapErr
    (fun error => .database s!"Failed to find StateDiff from short {shortstatehash.toNat}: {text error}")
  Action.lift (StateDiff.ofRow value)

def saveStatediff (diff : StateDiff) : FaultyAction Unit :=
  put faults .putStatediff fun store => { store with
    statediffs := Function.update store.statediffs shortstatehash (some diff.toRow) }

def newShortstatehashInfo (load : ShortStateHash → FaultyAction (List ShortStateInfo))
    (shortstatehash : ShortStateHash) : FaultyAction (List ShortStateInfo) := do
  let diff ← getStatediff faults shortstatehash
  match diff.parent with
  | none => return [⟨shortstatehash, diff.added, diff.added, diff.removed⟩]
  | some parent =>
    let stack ← load parent
    let top ← Action.lift (.expect "at least one frame" stack.getLast?)
    let fullState := patched top.fullState diff.added diff.removed
    return stack ++ [⟨shortstatehash, fullState, diff.added, diff.removed⟩]

def loadWithin : Nat → ShortStateHash → FaultyAction (List ShortStateInfo)
  | 0, _ => Action.lift (.error .unfinished)
  | depth + 1, shortstatehash => do
    match (← Flaky.within Action.get).stateinfoCache shortstatehash with
    | some stack => return stack
    | none =>
      let stack ← newShortstatehashInfo faults (loadWithin depth) shortstatehash
      Flaky.within (Action.modify fun store => { store with
        stateinfoCache := Function.update store.stateinfoCache shortstatehash (some stack) })
      return stack

def loadShortstatehashInfo : FaultyAction (List ShortStateInfo) :=
  loadWithin faults (shortstatehash.toNat + 1) shortstatehash

def loadPrevious : Option ShortStateHash → FaultyAction (List ShortStateInfo)
  | some previous => loadShortstatehashInfo faults previous
  | none => return []

def saveStateFromDiff (statediffnew statediffremoved : CompressedState)
    (diffToSibling : Nat) (parentStates : List ShortStateInfo) : FaultyAction Unit := do
  let diff ← Action.lift
    (statediffToSave statediffnew statediffremoved diffToSibling parentStates.reverse)
  saveStatediff faults shortstatehash diff

variable (roomId : RoomId)

def getRoomShortstatehash : FaultyAction ShortStateHash :=
  Flaky.readRow faults .getRoomShortstatehash storageError missing fun store => store.roomShortstatehashes roomId

def saveState (sha256 : List UInt8 → Digest) (roomId : RoomId) (newState : CompressedState) :
    FaultyAction HashSetCompressStateEvent := do
  let previous ← (getRoomShortstatehash faults roomId).attempt
  let (shortstatehash, alreadyExisted) ← getOrCreateShortstatehash faults (sha256 (delimited newState))
  if some shortstatehash = previous then
    return ⟨shortstatehash, ∅, ∅⟩
  let statesParents := (← (loadPrevious faults previous).attempt).getD []
  let (statediffnew, statediffremoved) := diffFrom statesParents newState
  Action.unlessDone alreadyExisted
    (saveStateFromDiff faults shortstatehash statediffnew statediffremoved 2 statesParents)
  return ⟨shortstatehash, statediffnew, statediffremoved⟩

def recordEventState (shorteventid : ShortEventId) (shortstatehash : Option ShortStateHash) :
    FaultyAction Unit :=
  match shortstatehash with
  | some shortstatehash =>
    put faults .putEventShortstatehash fun store => { store with
      eventShortstatehashes := Function.update store.eventShortstatehashes shorteventid (some shortstatehash) }
  | none => return ()

def setEventState (sha256 : List UInt8 → Digest) (eventId : EventId) (roomId : RoomId)
    (state : CompressedState) : FaultyAction ShortStateHash := do
  let shorteventid ← getOrCreateShorteventid faults eventId
  let previous ← (getRoomShortstatehash faults roomId).attempt
  let (shortstatehash, alreadyExisted) ← getOrCreateShortstatehash faults (sha256 (delimited state))
  Action.unlessDone alreadyExisted (do
    let statesParents ← loadPrevious faults previous
    let (statediffnew, statediffremoved) := diffFrom statesParents state
    saveStateFromDiff faults shortstatehash statediffnew statediffremoved 1000000 statesParents)
  recordEventState faults shorteventid (some shortstatehash)
  return shortstatehash

def orError (previous : Except Error ShortStateHash) (message : String) : FaultyAction ShortStateHash :=
  Action.lift (match previous with
    | .ok shortstatehash => .ok shortstatehash
    | .error error => .fail (.database (message ++ text error)))

def appendToState (newPdu : Pdu) : FaultyAction ShortStateHash := do
  let shorteventid ← getOrCreateShorteventid faults newPdu.eventId
  let previous ← result (getRoomShortstatehash faults newPdu.roomId)
  recordEventState faults shorteventid previous.toOption
  match newPdu.stateKey with
  | none => orError previous "first event in room must be a state event: "
  | some stateKey =>
    let statesParents ← loadPrevious faults previous.toOption
    let shortstatekey ← getOrCreateShortstatekey faults newPdu.kind stateKey
    let shorteventid ← getOrCreateShorteventid faults newPdu.eventId
    let new := compressStateEvent shortstatekey shorteventid
    let replaces := statesParents.getLast?.bind fun info => info.fullState.entryOf shortstatekey
    if some new = replaces then
      orError previous "state event replaces itself in an empty room: "
    else
      let shortstatehash ← nextCount faults
      saveStateFromDiff faults shortstatehash {new} replaces.toFinset 2 statesParents
      return shortstatehash

def setRoomState (shortstatehash : ShortStateHash) : FaultyAction Unit :=
  put faults .putRoomShortstatehash (Rooms.setRoomState roomId shortstatehash)

def deleteRoomShortstatehash : FaultyAction Unit :=
  Flaky.write faults .removeRoomShortstatehash storageError (Rooms.deleteRoomShortstatehash roomId)

end Saves

section Agreement

open Flaky

theorem follows_put (kind : Operation) (change : Store → Store) :
    Follows (put faultless kind change) (Action.modify change) := fun _ => ⟨rfl, rfl⟩

theorem follows_nextCount : Follows (nextCount faultless) Rooms.nextCount := by
  intro s
  simp only [nextCount, Flaky.within, Bind.bind]
  cases Rooms.nextCount s.store with
  | mk outcome after => cases outcome <;> exact ⟨rfl, rfl⟩

theorem follows_expectOk (message : String) : Follows (expectOk message (nextCount faultless)) Rooms.nextCount := by
  intro s
  have same := follows_nextCount s
  have spec := nextCount_spec s.store
  unfold expectOk
  split
  · next error after ran =>
    rw [ran] at same
    rw [Action.wp, show Rooms.nextCount s.store = (.error (.err error), _) from Prod.ext same.1.symm rfl] at spec
    cases spec.1
  · exact same

theorem follows_getOrCreateShort {kind : Operation} {recorded : Store → Option ShortId}
    {record : ShortId → FaultyAction Unit} {change : ShortId → Store → Store}
    (records : ∀ short, Follows (record short) (Action.modify (change short))) :
    Follows (getOrCreateShort faultless kind recorded record) (Rooms.getOrCreateShort recorded change) := by
  refine .view (.lookup recorded) fun store => ?_
  cases recorded store with
  | some short => exact .lift _
  | none => exact .bind (follows_expectOk _) fun short => .bind (records short) fun _ => .lift _

theorem follows_getOrCreateShorteventid (eventId : EventId) :
    Follows (getOrCreateShorteventid faultless eventId) (Rooms.getOrCreateShorteventid eventId) :=
  .bind (follows_getOrCreateShort fun _ _ => ⟨rfl, rfl⟩) fun _ => .lift _

theorem follows_getOrCreateShortstatekey (eventType : EventType) (stateKey : String) :
    Follows (getOrCreateShortstatekey faultless eventType stateKey) (Rooms.getOrCreateShortstatekey eventType stateKey) :=
  .bind (follows_getOrCreateShort fun _ _ => ⟨rfl, rfl⟩) fun _ => .lift _

theorem follows_getOrCreateShortstatehash (stateHash : Digest) :
    Follows (getOrCreateShortstatehash faultless stateHash) (Rooms.getOrCreateShortstatehash stateHash) :=
  follows_getOrCreateShort fun _ => follows_put _ _

theorem follows_getStatediff (shortstatehash : ShortStateHash) :
    Follows (getStatediff faultless shortstatehash) (Rooms.getStatediff shortstatehash) := by
  intro s
  simp only [getStatediff, Rooms.getStatediff, Action.mapErr, readRow, operate, faultless, Bind.bind, Action.get,
    Action.lift]
  cases s.store.statediffs shortstatehash <;> exact ⟨rfl, rfl⟩

theorem follows_loadWithin (depth : Nat) (shortstatehash : ShortStateHash) :
    Follows (loadWithin faultless depth shortstatehash) (Rooms.loadWithin depth shortstatehash) := by
  induction depth generalizing shortstatehash with
  | zero => exact .lift _
  | succ depth ih =>
    refine .bind (.within _) fun store => ?_
    cases store.stateinfoCache shortstatehash with
    | some stack => exact .lift _
    | none =>
      refine .bind (.bind (follows_getStatediff _) fun diff => ?_) fun stack => .bind (.within _) fun _ => .lift _
      cases diff.parent with
      | none => exact .lift _
      | some parent => exact .bind (ih parent) fun stack => .bind (.lift _) fun _ => .lift _

theorem follows_loadPrevious (previous : Option ShortStateHash) :
    Follows (loadPrevious faultless previous) (Rooms.loadPrevious previous) := by
  cases previous with
  | none => exact .lift _
  | some shortstatehash => exact follows_loadWithin _ _

theorem follows_saveStateFromDiff (shortstatehash : ShortStateHash) (added removed : CompressedState) (sibling : Nat)
    (parents : List ShortStateInfo) : Follows (saveStateFromDiff faultless shortstatehash added removed sibling parents)
      (Rooms.saveStateFromDiff shortstatehash added removed sibling parents) :=
  .bind (.lift _) fun _ => follows_put _ _

theorem follows_unlessDone {flaky : FaultyAction Unit} {plain : StoreAction Unit} (done : Bool)
    (follows : Follows flaky plain) : Follows (Action.unlessDone done flaky) (Action.unlessDone done plain) := by
  cases done with
  | true => exact .lift _
  | false => exact follows

theorem follows_recordEventState (shorteventid : ShortEventId) (shortstatehash : Option ShortStateHash) :
    Follows (recordEventState faultless shorteventid shortstatehash)
      (Rooms.recordEventState shorteventid shortstatehash) := by
  cases shortstatehash with
  | none => exact .lift _
  | some shortstatehash => exact follows_put _ _

/-- Without faults the calls are those of the plain model. -/
theorem follows_saveState (sha256 : List UInt8 → Digest) (roomId : RoomId) (newState : CompressedState) :
    Follows (saveState faultless sha256 roomId newState) (Rooms.saveState sha256 roomId newState) := by
  refine .view (.lookup _) fun store => .bind (follows_getOrCreateShortstatehash _) fun (short, existed) => ?_
  dsimp only
  split
  · exact .lift _
  · refine .bind (.attempt (follows_loadPrevious _)) fun parents => ?_
    exact .bind (follows_unlessDone _ (follows_saveStateFromDiff _ _ _ _ _)) fun _ => .lift _

theorem follows_setEventState (sha256 : List UInt8 → Digest) (eventId : EventId) (roomId : RoomId)
    (state : CompressedState) :
    Follows (setEventState faultless sha256 eventId roomId state) (Rooms.setEventState sha256 eventId roomId state) := by
  refine .bind (follows_getOrCreateShorteventid _) fun shorteventid => .view (.lookup _) fun store => ?_
  refine .bind (follows_getOrCreateShortstatehash _) fun (short, existed) => ?_
  refine .bind (follows_unlessDone _ ?_) fun _ => .bind (follows_recordEventState _ _) fun _ => .lift _
  exact .bind (follows_loadPrevious _) fun parents => follows_saveStateFromDiff _ _ _ _ _

theorem follows_appendToState (newPdu : Pdu) : Follows (appendToState faultless newPdu) (Rooms.appendToState newPdu) := by
  have read : Follows (result (getRoomShortstatehash faultless newPdu.roomId)) (fun store =>
      (.ok ((store.roomShortstatehashes newPdu.roomId).elim (.error missing) .ok), store)) := by
    intro s
    simp only [result, getRoomShortstatehash, readRow, operate, faultless, Bind.bind, Action.lift]
    cases s.store.roomShortstatehashes newPdu.roomId <;> exact ⟨rfl, rfl⟩
  refine .bind (follows_getOrCreateShorteventid _) fun shorteventid => .view read fun store => ?_
  cases store.roomShortstatehashes newPdu.roomId <;> refine .bind (follows_recordEventState _ _) fun _ => ?_ <;>
    cases newPdu.stateKey with
    | none => exact .lift _
    | some stateKey =>
      refine .bind (follows_loadPrevious _) fun parents => .bind (follows_getOrCreateShortstatekey _ _) fun key => ?_
      refine .bind (follows_getOrCreateShorteventid _) fun event => ?_
      dsimp only
      split
      · exact .lift _
      · exact .bind follows_nextCount fun short => .bind (follows_saveStateFromDiff _ _ _ _ _) fun _ => .lift _

end Agreement

end Phantom.Rooms.Faulty
