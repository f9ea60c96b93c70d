import Phantom.EventHandler.Frames
import Phantom.Timeline.Build

namespace Phantom.EventHandler

open Phantom.Lib Phantom.Matrix Phantom.Rooms Phantom.Timeline Action
open Phantom.StateRes (RoomVersionId)

section Upgrade

variable (handler : Handler) (incoming : Incoming)

/-- Nothing stands against an append of the event: the room has a short ID, `unsigned` is absent or an object,
    and the events that are stored or may be handed over have contents that are canonical objects. -/
structure Appendable (tables : Tables) : Prop where
  room : (tables.shortroomids incoming.pdu.roomId).isSome
  unsigned : ∃ members, unsignedOf incoming.value = .object members
  stored : ∀ id pdu, tables.getPdu id = some pdu → (handler.contents.ruma.canonicalObject pdu.content).isSome
  handed : ∀ pdu, handler.Hands pdu → (handler.contents.ruma.canonicalObject pdu.content).isSome

theorem Appendable.mono {before after : Tables} (ready : Appendable handler incoming before)
    (rooms : after.shortroomids = before.shortroomids)
    (stored : ∀ id pdu, after.getPdu id = some pdu → before.getPdu id = some pdu ∨ handler.Hands pdu) :
    Appendable handler incoming after where
  room := rooms ▸ ready.room
  unsigned := ready.unsigned
  stored id pdu found := (stored id pdu found).elim (ready.stored id pdu) (ready.handed pdu)
  handed := ready.handed

end Upgrade

namespace Sample

open Phantom.Timeline.Sample (room contents tables)

def bob : UserId := ⟨"@bob:there"⟩

def authEventsOf (tables : Tables) (ids : List EventId) : List EventId :=
  ids.flatMap fun id => (tables.getPdu id).elim [] Event.authEvents

def handler : Handler where
  contents := contents
  sha256 := id
  stateOrder := .ascending UInt64.toNat fun _ _ same => UInt64.toNat_inj.mp same
  resolvedOrder := StateRes.Sample.keyOrder
  schedule := StateRes.Sample.schedule .inOrder
  fuel := 50
  automaticWidth := 1
  getAuthChain tables _ ids := let first := authEventsOf tables ids
    let second := authEventsOf tables first
    let third := authEventsOf tables second
    some ((first ++ second ++ third).filterMap tables.rooms.shorteventids)
  roomStateIds _ _ := none
  handledOutliers _ _ _ := []
  updateMembership _ _ _ := .ok ()

def bobJoins (unsigned : Json) : Incoming where
  pdu := {
    eventId := ⟨"$join"⟩, roomId := room, sender := bob, originServerTs := 1, eventType := .roomMember,
    content := .object [("membership", .string "join")], stateKey := some bob.asStr,
    prevEvents := [⟨"$m.room.join_rules"⟩],
    authEvents := [⟨"$m.room.create"⟩, ⟨"$m.room.join_rules"⟩], redacts := none }
  value := BTreeMap.insert "unsigned" unsigned .empty
  origin := ⟨"there"⟩
  roomId := room

def received (incoming : Incoming) : Tables := tables.addPduOutlier incoming.pdu

/-- Reads every content as a canonical object. -/
def lenient : Handler :=
  { handler with contents := { contents with ruma := { contents.ruma with canonicalObject := fun _ => some [] } } }

/-- A join after an event that neither we nor the server that sent it know. -/
def stranded : Incoming :=
  { bobJoins (.object []) with pdu := { (bobJoins (.object [])).pdu with prevEvents := [⟨"$unknown"⟩] } }

end Sample

end Phantom.EventHandler
