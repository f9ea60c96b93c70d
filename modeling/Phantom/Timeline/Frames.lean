import Phantom.Rooms.Frames
import Phantom.Timeline.Append

namespace Phantom.Timeline

open Phantom.Lib Phantom.Matrix Phantom.Rooms Action

variable (tables : Tables)

def Tables.appended :
    (RoomId → Option ShortRoomId) × (RoomId → Finset EventId) × ((id : EventId) → Option (TimelineRow id)) :=
  (tables.shortroomids, tables.pduleaves, tables.timeline)

def Tables.placed := (tables.rooms.roomShortstatehashes, tables.appended)

def Tables.standing := (tables.placed, tables.outliers)

theorem getPdu_of_stored {before after : Tables}
    (kept : (after.appended, after.outliers) = (before.appended, before.outliers)) : after.getPdu = before.getPdu := by
  have timeline : after.timeline = before.timeline := congrArg (fun view => view.1.2.2) kept
  have outliers : after.outliers = before.outliers := congrArg Prod.snd kept
  funext id
  rw [Tables.getPdu, Tables.getPdu, timeline, outliers]

theorem getPdu_of_standing {before after : Tables} (kept : after.standing = before.standing) :
    after.getPdu = before.getPdu := getPdu_of_stored (congrArg (fun view => (view.1.2, view.2)) kept)

abbrev KeepsStanding {α : Type} (action : TimelineAction α) : Prop := Keeps Tables.standing action

section Frames

variable {α : Type} (contents : Contents)

theorem keepsAppended_onRooms (action : StoreAction α) : Keeps Tables.appended (onRooms action) := fun _ => rfl

theorem keepsStanding_onRooms {action : StoreAction α} (kept : KeepsRooms action) :
    KeepsStanding (onRooms action) := by
  apply Keeps.zoom kept
  intro t after same
  exact congrArg (fun hashes => ((hashes, t.appended), t.outliers)) same

theorem keepsStanding_readRow (row : Tables → Option α) : KeepsStanding (readRow row) := by
  apply Keeps.bind .get
  exact fun _ => .lift _

variable (hash : ShortStateHash)

theorem keepsStanding_loadFullState : KeepsStanding (loadFullState hash) := by
  apply Keeps.bind (Keeps.mapErr (keepsStanding_onRooms (keepsRooms_loadShortstatehashInfo hash)))
  intro stack
  apply Keeps.bind (.lift _)
  exact fun _ => .pure _

theorem keepsStanding_stateFullIds : KeepsStanding (stateFullIds hash) := by
  apply Keeps.bind (keepsStanding_loadFullState hash).attempt
  intro loaded
  apply Keeps.bind .get
  exact fun _ => .pure _

theorem keepsStanding_stateGetId (eventType : EventType) (stateKey : String) :
    KeepsStanding (stateGetId hash eventType stateKey) := by
  have shortid : KeepsStanding (stateGetShortid hash eventType stateKey) := by
    apply Keeps.bind (keepsStanding_readRow _)
    grind [Keeps.bind, keepsStanding_loadFullState, Keeps.lift, Keeps.pure]
  apply Keeps.bind shortid
  intro shorteventid
  apply Keeps.bind .get
  exact fun _ => .lift _

theorem keepsStanding_stateGet (eventType : EventType) (stateKey : String) :
    KeepsStanding (stateGet hash eventType stateKey) :=
  .bind (keepsStanding_stateGetId hash eventType stateKey) fun _ => keepsStanding_readRow _

variable (roomId : RoomId)

theorem keepsStanding_roomStateGet (eventType : EventType) (stateKey : String) :
    KeepsStanding (roomStateGet roomId eventType stateKey) :=
  .bind (keepsStanding_readRow _) fun _ => keepsStanding_stateGet _ _ _

theorem keepsStanding_getRoomVersion : KeepsStanding (getRoomVersion contents roomId) := by
  apply Keeps.mapErr
  apply Keeps.bind (keepsStanding_roomStateGet roomId .roomCreate "")
  exact fun _ => .lift _

theorem keepsStanding_powerToRedact (sender : UserId) : KeepsStanding (powerToRedact contents roomId sender) := by
  apply Keeps.bind (keepsStanding_roomStateGet roomId .roomPowerLevels "")
  grind [Keeps.bind, Keeps.lift, Keeps.attempt, keepsStanding_roomStateGet, Keeps.pure]

theorem keepsStanding_userCanRedact (redacts : EventId) (sender : UserId) (roomId : RoomId) (federation : Bool) :
    KeepsStanding (userCanRedact contents redacts sender roomId federation) := by
  apply Keeps.bind .get
  intro t
  simp only
  split
  · exact .pure _
  split
  · exact .lift _
  split
  · exact .lift _
  · grind [Keeps.bind, Keeps.attempt, keepsStanding_powerToRedact, Keeps.pure, keepsStanding_roomStateGet, Keeps.lift]

theorem keepsStanding_prevStateOf (pdu : Event) (stateKey : String) : KeepsStanding (prevStateOf pdu stateKey) :=
  .bind (keepsStanding_readRow _) fun _ => keepsStanding_stateGet _ _ _

theorem keepsStanding_addPrevContent (pdu : Event) (pduJson : CanonicalJsonObject) :
    KeepsStanding (addPrevContent contents pdu pduJson) := by
  unfold addPrevContent
  split
  · exact .pure _
  · grind [Keeps.bind, Keeps.attempt, keepsStanding_prevStateOf, Keeps.pure, Keeps.lift]

end Frames

section Failures

variable (contents : Contents) (sha256 : List UInt8 → Digest) (pdu : Event) (pduJson : CanonicalJsonObject)

theorem never_write (shortroomid : ShortRoomId) (leafs : List EventId) : Never (do
      Action.modify fun t => t.setForwardExtremities pdu.roomId leafs
      let pduId ← Timeline.insert pdu pduJson shortroomid
      let _ ← (actOnKind contents pdu).attempt
      return pduId : TimelineAction PduId) := by
  have counted : Never (onRooms nextCount) := never_nextCount.zoom
  refine .bind (.modify _) fun _ => .bind ?_ fun pduId => .bind (.attempt _) fun _ => .pure _
  exact .bind counted fun _ => .bind counted fun _ => .bind counted fun count => .bind (.modify _) fun _ => .pure _

variable (leafs : List EventId)

variable {contents sha256 pdu pduJson leafs}

section

variable {t : Tables} (unsigned : ∃ members, unsignedOf pduJson = .object members)
  (canonical : ∀ id stored, t.getPdu id = some stored → (contents.ruma.canonicalObject stored.content).isSome)
include unsigned canonical

end

end Failures

end Phantom.Timeline
