import Phantom.Lib.Frame
import Phantom.Rooms.Layers
import Phantom.Rooms.State

namespace Phantom.Rooms

open Phantom.Lib Phantom.Matrix Action

abbrev KeepsRooms {α : Type} (action : StoreAction α) : Prop := Keeps Store.roomShortstatehashes action

theorem keepsRooms_nextCount : KeepsRooms nextCount := by
  apply Keeps.bind .get
  intro store
  split
  · exact .bind (.modify fun _ => rfl) fun _ => .pure _
  · exact .lift _

theorem keepsRooms_getOrCreateShort {recorded : Store → Option ShortId} {record : ShortId → Store → Store}
    (kept : ∀ short store, (record short store).roomShortstatehashes = store.roomShortstatehashes) :
    KeepsRooms (getOrCreateShort recorded record) := by
  apply Keeps.bind .get
  grind [Keeps.pure, Keeps.bind, keepsRooms_nextCount, Keeps.modify]

theorem keepsRooms_getOrCreateShorteventid (eventId : EventId) : KeepsRooms (getOrCreateShorteventid eventId) :=
  .bind (keepsRooms_getOrCreateShort fun _ _ => rfl) fun _ => .pure _

theorem keepsRooms_getOrCreateShortstatekey (eventType : EventType) (stateKey : String) :
    KeepsRooms (getOrCreateShortstatekey eventType stateKey) :=
  .bind (keepsRooms_getOrCreateShort fun _ _ => rfl) fun _ => .pure _

theorem keepsRooms_getOrCreateShortstatehash (stateHash : Digest) :
    KeepsRooms (getOrCreateShortstatehash stateHash) := keepsRooms_getOrCreateShort fun _ _ => rfl

variable (hash : ShortStateHash)

theorem keepsRooms_getStatediff : KeepsRooms (getStatediff hash) := by
  apply Keeps.bind .get
  intro store
  apply Keeps.bind (.lift _)
  exact fun _ => .lift _

theorem keepsRooms_newShortstatehashInfo {load : ShortStateHash → StoreAction (List ShortStateInfo)}
    (kept : ∀ hash, KeepsRooms (load hash)) (hash : ShortStateHash) :
    KeepsRooms (newShortstatehashInfo load hash) := by
  apply Keeps.bind (keepsRooms_getStatediff hash)
  grind [Keeps.pure, Keeps.bind, Keeps.lift]

theorem keepsRooms_loadWithin (depth : Nat) (hash : ShortStateHash) : KeepsRooms (loadWithin depth hash) := by
  induction depth generalizing hash with
  | zero => exact .lift _
  | succ depth ih =>
    apply Keeps.bind .get
    intro store
    split
    · exact .pure _
    · apply Keeps.bind (keepsRooms_newShortstatehashInfo ih hash)
      intro stack
      exact .bind (.modify fun _ => rfl) fun _ => .pure _

theorem keepsRooms_loadShortstatehashInfo : KeepsRooms (loadShortstatehashInfo hash) := keepsRooms_loadWithin _ hash

theorem keepsRooms_loadPrevious (prev : Option ShortStateHash) : KeepsRooms (loadPrevious prev) := by
  cases prev with
  | none => exact .pure _
  | some prev => exact keepsRooms_loadShortstatehashInfo prev

theorem keepsRooms_saveStateFromDiff (statediffnew statediffremoved : CompressedState) (diffToSibling : Nat)
    (parentStates : List ShortStateInfo) :
    KeepsRooms (saveStateFromDiff hash statediffnew statediffremoved diffToSibling parentStates) := by
  apply Keeps.bind (.lift _)
  exact fun _ => .modify fun _ => rfl

variable (sha256 : List UInt8 → Digest)

theorem keepsRooms_recordEventState (shorteventid : ShortEventId) (hash : Option ShortStateHash) :
    KeepsRooms (recordEventState shorteventid hash) := by
  cases hash with
  | none => exact .pure _
  | some hash => exact .modify fun _ => rfl

theorem keepsRooms_setEventState (eventId : EventId) (roomId : RoomId) (s : CompressedState) :
    KeepsRooms (setEventState sha256 eventId roomId s) := by
  apply Keeps.bind (keepsRooms_getOrCreateShorteventid eventId)
  grind [Keeps.bind, Keeps.get, keepsRooms_getOrCreateShortstatehash, Keeps.unlessDone, keepsRooms_loadPrevious,
    keepsRooms_saveStateFromDiff, keepsRooms_recordEventState, Keeps.pure]

section Errors

theorem never_nextCount : Never nextCount := by
  refine .bind .get fun store => ?_
  split
  · exact .bind (.modify _) fun _ => .pure _
  · exact .lift fun _ => nofun

variable {allowed : Error → Prop}

end Errors

end Phantom.Rooms
