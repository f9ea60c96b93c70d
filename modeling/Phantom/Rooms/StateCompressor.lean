import Phantom.Lib.Patch
import Phantom.Rooms.StateStore

namespace Phantom.Rooms

open Phantom.Lib Phantom.Matrix

variable (shortstatehash : ShortStateHash)

def getStatediff : StoreAction StateDiff := do
  let value ← Action.lift (.ofOption
    (.database s!"Failed to find StateDiff from short {shortstatehash.toNat}: {notFoundInDatabase}")
    ((← Action.get).statediffs shortstatehash))
  Action.lift (StateDiff.ofRow value)

def saveStatediff (diff : StateDiff) : StoreAction Unit :=
  Action.modify fun store => { store with
    statediffs := Function.update store.statediffs shortstatehash (some diff.toRow) }

/-- Whatever the store: a diff whose parent is not zero and whose entries have keys that are not is read back as it
    was saved. -/
theorem statediff_survives_storage (store : Store) (shortstatehash : ShortStateHash) (diff : StateDiff)
    (parented : diff.parent ≠ some 0) (named : ∀ event ∈ diff.added ∪ diff.removed, event.shortstatekey ≠ 0) :
    ∃ after, saveStatediff shortstatehash diff store = (.ok (), after) ∧
      getStatediff shortstatehash after = (.ok diff, after) := by
  have read : (StateDiff.ofRow diff.toRow : Outcome Error StateDiff) = .ok diff :=
    diff.ofRow_toRow parented fun event mem => named event (Finset.mem_union_left _ mem)
  refine ⟨_, rfl, ?_⟩
  simp [getStatediff, Action.get, Action.lift, Outcome.ofOption, Bind.bind, read]

def replacing : StateDiff := ⟨some 3, {⟨1, 9⟩}, {⟨1, 2⟩, ⟨4, 8⟩}⟩

theorem statediff_survives_storage_replacing :
    ∃ after, saveStatediff 5 replacing .empty = (.ok (), after) ∧ getStatediff 5 after = (.ok replacing, after) := by
  apply statediff_survives_storage
  · decide
  · simp [replacing]

def newShortstatehashInfo (load : ShortStateHash → StoreAction (List ShortStateInfo))
    (shortstatehash : ShortStateHash) : StoreAction (List ShortStateInfo) := do
  let diff ← getStatediff shortstatehash
  match diff.parent with
  | none => return [⟨shortstatehash, diff.added, diff.added, diff.removed⟩]
  | some parent =>
    let stack ← load parent
    let top ← Action.lift (.expect "at least one frame" stack.getLast?)
    let fullState := patched top.fullState diff.added diff.removed
    return stack ++ [⟨shortstatehash, fullState, diff.added, diff.removed⟩]

/-- `load_shortstatehash_info`, given up after so many parents. -/
def loadWithin : Nat → ShortStateHash → StoreAction (List ShortStateInfo)
  | 0, _ => Action.lift (.error .unfinished)
  | depth + 1, shortstatehash => do
    match (← Action.get).stateinfoCache shortstatehash with
    | some stack => return stack
    | none =>
      let stack ← newShortstatehashInfo (loadWithin depth) shortstatehash
      Action.modify fun store => { store with
        stateinfoCache := Function.update store.stateinfoCache shortstatehash (some stack) }
      return stack

def loadShortstatehashInfo : StoreAction (List ShortStateInfo) :=
  loadWithin (shortstatehash.toNat + 1) shortstatehash

def mergeIntoParent (parent : ShortStateInfo) (statediffnew statediffremoved : CompressedState) :
    CompressedState × CompressedState :=
  let (parentNew, parentRemoved) :=
    cancelOrInsert statediffremoved.iter (parent.added, parent.removed)
  let (parentRemoved, parentNew) := cancelOrInsert statediffnew.iter (parentRemoved, parentNew)
  (parentNew, parentRemoved)

/-- The row that `save_state_from_diff` ends up writing. The parent states are popped from the
    back of their vector, so here the last one comes first. -/
def statediffToSave (statediffnew statediffremoved : CompressedState) (diffToSibling : Nat) :
    List ShortStateInfo → Outcome Error StateDiff
  | [] => do
    let _ ← checked (statediffnew.card + statediffremoved.card)
    return ⟨none, statediffnew, statediffremoved⟩
  | parent :: parentStates => do
    let diffsum ← checked (statediffnew.card + statediffremoved.card)
    if parentStates.length + 1 > 3 then
      let (parentNew, parentRemoved) := mergeIntoParent parent statediffnew statediffremoved
      statediffToSave parentNew parentRemoved diffsum parentStates
    else
      let parentDiff ← checked (parent.added.card + parent.removed.card)
      let square ← checked (diffsum * diffsum)
      let doubled ← checked (2 * diffToSibling)
      let bound ← checked (doubled * parentDiff)
      if square ≥ bound then
        let (parentNew, parentRemoved) := mergeIntoParent parent statediffnew statediffremoved
        statediffToSave parentNew parentRemoved diffsum parentStates
      else
        return ⟨some parent.shortstatehash, statediffnew, statediffremoved⟩

def saveStateFromDiff (statediffnew statediffremoved : CompressedState)
    (diffToSibling : Nat) (parentStates : List ShortStateInfo) : StoreAction Unit := do
  let diff ← Action.lift
    (statediffToSave statediffnew statediffremoved diffToSibling parentStates.reverse)
  saveStatediff shortstatehash diff

def delimited (state : CompressedState) : List UInt8 :=
  match state.iter with
  | [] => []
  | input :: inputs => input.toBytes ++ inputs.flatMap fun input => 0xFF :: input.toBytes

theorem delimited_injective : Function.Injective delimited := by
  intro left right same
  have blocks : Function.Injective (fun inputs : List CompressedStateEvent =>
      inputs.flatMap fun input => 0xFF :: input.toBytes) := by
    apply flatMap_injective 17 (by omega)
    · intro input
      rw [List.length_cons, CompressedStateEvent.length_toBytes]
    · intro one other equal
      exact CompressedStateEvent.toBytes_injective (List.cons.inj equal).2
  have lists : left.iter = right.iter := by
    unfold delimited at same
    cases one : left.iter with
    | nil =>
      grind [List.length_append, CompressedStateEvent.length_toBytes]
    | cons input inputs =>
      grind [List.length_append, CompressedStateEvent.length_toBytes, List.append_inj,
        CompressedStateEvent.toBytes_injective]
  grind [CompressedState.toFinset_iter]

def diffFrom (parentStates : List ShortStateInfo) (state : CompressedState) :
    CompressedState × CompressedState :=
  match parentStates.getLast? with
  | some parent => (state \ parent.fullState, parent.fullState \ state)
  | none => (state, ∅)

def loadPrevious : Option ShortStateHash → StoreAction (List ShortStateInfo)
  | some previous => loadShortstatehashInfo previous
  | none => return []

structure HashSetCompressStateEvent where
  shortstatehash : ShortStateHash
  added : CompressedState
  removed : CompressedState
deriving DecidableEq

def saveState (sha256 : List UInt8 → Digest) (roomId : RoomId) (newState : CompressedState) :
    StoreAction HashSetCompressStateEvent := do
  let previous := (← Action.get).roomShortstatehashes roomId
  let (shortstatehash, alreadyExisted) ← getOrCreateShortstatehash (sha256 (delimited newState))
  if some shortstatehash = previous then
    return ⟨shortstatehash, ∅, ∅⟩
  let statesParents := (← (loadPrevious previous).attempt).getD []
  let (statediffnew, statediffremoved) := diffFrom statesParents newState
  Action.unlessDone alreadyExisted (saveStateFromDiff shortstatehash statediffnew statediffremoved 2 statesParents)
  return ⟨shortstatehash, statediffnew, statediffremoved⟩

end Phantom.Rooms
