import Phantom.EventHandler.FailedUpgrade
import Phantom.Lib.Runs
import Phantom.Timeline.Extremities

namespace Phantom.EventHandler

open Phantom.Lib Phantom.Matrix Phantom.Rooms Phantom.Timeline Action
open Phantom.StateRes (RoomVersionId)

section Upgrade

variable (handler : Handler) (incoming : Incoming)

theorem checks_new (t : Tables) : (checks handler incoming).wp t (fun verdict after => after.placed = t.placed ∧
        ((∃ pduId, verdict = .known pduId) ∨ t.timeline incoming.pdu.eventId = none))
      (fun _ after => after.placed = t.placed) := by
  rw [checks, wp_bind, wp_get]
  split
  · exact ⟨rfl, Or.inl ⟨_, rfl⟩⟩
  · next new =>
    split
    · exact ⟨rfl, Or.inl ⟨_, rfl⟩⟩
    · have kept : Keeps Tables.placed (checkIncoming handler incoming) :=
        fun t => (fetches_checkIncoming handler incoming t).placed
      exact wp_mono (kept.wp rfl) (fun _ _ kept => ⟨kept, Or.inr new⟩) fun _ _ kept => kept

theorem keepsStanding_softFail (stateIds : CompressedState) :
    KeepsStanding (place handler incoming (.softFail stateIds)) := by
  apply Keeps.bind
  · exact .bind (keepsStanding_onRooms (keepsRooms_setEventState _ _ _ _)) fun _ => .pure _
  · exact fun _ => .bind (.modify fun _ => rfl) fun _ => .pure _

theorem appendIncomingPdu_grown (leafs : List EventId) (stateIds : CompressedState) (t : Tables) :
    Ends (appendIncomingPdu handler.contents handler.sha256 incoming.pdu incoming.value leafs stateIds false)
      t (Grown incoming.pdu leafs t) := by
  have stateKept := (keepsAppended_onRooms
    (setEventState handler.sha256 incoming.pdu.eventId incoming.pdu.roomId stateIds)).comp graphOf
  apply Ends.after_keeps stateKept rfl fun _ => Or.inl
  intro hash recorded base
  have appended := appendPdu_grown handler.contents incoming.pdu incoming.value leafs recorded
  apply Ends.bind (appended.mono fun after grown => grown.from_same base)
  exact fun _ _ grown => grown

variable {t : Tables}

theorem isSome_of_leaf (covered : t.graph.Covered) {roomId : RoomId} {leaf : EventId}
    (mem : leaf ∈ t.pduleaves roomId) : (t.timeline leaf).isSome := by
  obtain ⟨prev, found⟩ := covered.held roomId leaf mem
  obtain ⟨row, held, _⟩ := Option.map_eq_some_iff.mp found
  rw [show t.timeline leaf = some row from held]
  rfl

theorem covered_place {checked : Tables} (covered : t.graph.Covered) (kept : checked.placed = t.placed)
    (new : t.timeline incoming.pdu.eventId = none) (here : incoming.pdu.roomId = incoming.roomId)
    (roomVersionId : RoomVersionId) (stateIds : CompressedState) (after : StateAtEvent) :
    Ends (place handler incoming (.accept roomVersionId stateIds after)) checked (fun last => last.graph.Covered) := by
  have base : checked.graph = t.graph := graph_of_placed kept
  have coveredChecked : checked.graph.Covered := base ▸ covered
  have timeline : checked.timeline = t.timeline := congrArg (fun view => view.2.2.2) kept
  rw [place, extremities, Ends, wp_bind, wp_bind, wp_get, wp_pure]
  apply Ends.after_keeps ((keepsStored_installAfter handler incoming roomVersionId after).comp
    (fun view => graphOf view.1)) rfl
  · grind [Tables.graph]
  · intro _ installed g
    apply (appendIncomingPdu_grown handler incoming _ stateIds installed).mono
    intro last grown
    rcases grown.from_same g with unchanged | ⟨numbered, appended⟩
    · exact unchanged ▸ coveredChecked
    · rw [appended]
      apply coveredChecked.append _ numbered
      · simp
      · intro leaf mem
        simp only [List.mem_toFinset, List.mem_append, List.mem_filter, Tables.mem_getForwardExtremities,
          List.mem_singleton] at mem
        rcases mem with ⟨⟨old, _⟩, _⟩ | rfl
        · exact Or.inr (here ▸ old)
        · exact Or.inl rfl
      · intro leaf mem
        have held := isSome_of_leaf coveredChecked mem
        by_cases superseded : leaf ∈ incoming.pdu.prevEvents
        · exact Or.inr superseded
        · left
          simp only [List.mem_toFinset, List.mem_append, List.mem_filter, Tables.mem_getForwardExtremities,
            List.mem_singleton]
          exact Or.inl ⟨⟨here ▸ mem, by simpa using superseded⟩, by simp [Tables.pduExists, held]⟩
      · change (checked.timeline incoming.pdu.eventId).map _ = none
        rw [timeline, new]
        rfl

theorem upgrade_covered (covered : t.graph.Covered) (here : incoming.pdu.roomId = incoming.roomId) :
    Ends (upgradeOutlierToTimelinePdu handler incoming) t (fun after => after.graph.Covered) := by
  have checked := checks_new handler incoming t
  apply Ends.bind (wp_mono checked (fun _ _ found => found) fun _ after kept _ => graph_of_placed kept ▸ covered)
  rintro verdict checked ⟨kept, found⟩
  have base : checked.graph.Covered := graph_of_placed kept ▸ covered
  cases verdict with
  | known pduId => exact base
  | softFail stateIds =>
    grind [Ends.of_keeps, keepsStanding_softFail, graph_of_standing]
  | accept roomVersionId stateIds after =>
    grind [covered_place]

end Upgrade

section Build

variable (builder : Builder) (pdu : PduBuilder) (sender : UserId) (roomId : RoomId) {tables t : Tables}

/-- The reference hash gives a new event an ID that no event of the timeline has, and a room that it names
    is not one that exists. -/
def FreshId (tables : Tables) : Prop :=
  ∀ built after, buildHashAndSignEvent builder pdu sender roomId tables = (.ok built, after) →
    tables.timeline built.1.eventId = none ∧ (built.1.roomId = roomId ∨ tables.shortroomids built.1.roomId = none)

theorem built_spec (fresh : FreshId builder pdu sender roomId t) :
    (buildHashAndSignEvent builder pdu sender roomId).wp t
      (fun built after => after.graph = t.graph ∧ t.graph.events built.1.eventId = none ∧
        (built.1.roomId = roomId ∨ t.shortroomids built.1.roomId = none) ∧
        built.1.prevEvents = (t.getForwardExtremities roomId).take maxPrevEvents)
      (fun _ after => after.graph = t.graph) := by
  have spec := buildHashAndSignEvent_spec builder pdu sender roomId t
  unfold Action.wp at spec ⊢
  cases ran : buildHashAndSignEvent builder pdu sender roomId t with
  | mk outcome after =>
    rw [ran] at spec
    cases outcome with
    | error failure => exact graph_of_standing spec
    | ok built =>
      obtain ⟨new, room⟩ := fresh built after ran
      have unfiled : t.graph.events built.1.eventId = none := by
        change (t.timeline built.1.eventId).map _ = none
        rw [new]
        rfl
      exact ⟨graph_of_standing spec.2, unfiled, room, spec.1⟩

theorem build_covered (covered : t.graph.Covered) (fresh : FreshId builder pdu sender roomId t)
    (narrow : (t.pduleaves roomId).card ≤ maxPrevEvents) :
    Ends (buildAndAppendPdu builder pdu sender roomId) t (fun after => after.graph.Covered) := by
  apply Ends.bind (wp_mono (built_spec builder pdu sender roomId fresh) (fun _ _ built => built)
    (fun _ after same _ => same ▸ covered))
  rintro built signed ⟨same, new, room, follows⟩
  apply (appendBuiltPdu_grown builder sender built.1 built.2 signed).mono
  intro after grown
  rcases grown.from_same same with unchanged | ⟨numbered, appended⟩
  · exact unchanged ▸ covered
  · have here : built.1.roomId = roomId := room.resolve_right numbered
    have whole : (t.getForwardExtremities roomId).take maxPrevEvents = t.getForwardExtremities roomId := by
      apply List.take_of_length_le
      rw [Tables.length_getForwardExtremities]
      exact narrow
    rw [appended]
    apply covered.append new numbered
    · simp
    · intro leaf mem
      left
      simpa using mem
    · intro leaf mem
      right
      rw [follows, whole, Tables.mem_getForwardExtremities]
      exact here ▸ mem

theorem getOrCreateShortroomid_covered {t : Tables} (covered : t.graph.Covered) : (getOrCreateShortroomid roomId).wp t
      (fun _ after => after.graph.Covered ∧ after.graph.events = t.graph.events ∧
        after.graph.pduleaves = t.graph.pduleaves) (fun _ after => after.graph.Covered) := by
  rw [getOrCreateShortroomid, wp_bind, wp_get]
  split
  · exact ⟨covered, rfl, rfl⟩
  · apply wp_seq (((keepsAppended_onRooms nextCount).comp graphOf).wp rfl)
    · intro short counted same
      have base : counted.graph = t.graph := same
      have coveredCounted : counted.graph.Covered := base ▸ covered
      have events : counted.graph.events = t.graph.events := congrArg RoomGraph.events base
      have leaves : counted.graph.pduleaves = t.graph.pduleaves := congrArg RoomGraph.pduleaves base
      exact ⟨coveredCounted.number short, events, leaves⟩
    · grind [Tables.graph]

theorem create_covered (covered : t.graph.Covered) (fresh : FreshId builder pdu sender roomId t) :
    Ends (buildAndAppendCreatePdu builder pdu sender roomId) t (fun after => after.graph.Covered) := by
  apply Ends.bind (wp_mono (built_spec builder pdu sender roomId fresh) (fun _ _ built => built)
    (fun _ after same _ => same ▸ covered))
  rintro built signed ⟨same, new, _, follows⟩
  have base : signed.graph.Covered := same ▸ covered
  rw [Ends, wp_bind, wp_get]
  split
  · exact fun _ => base
  · next unnumbered =>
    have absent : signed.shortroomids built.1.roomId = none := by simpa using unnumbered
    have empty := base.leaves_of_unnumbered absent
    apply Ends.bind (wp_mono (getOrCreateShortroomid_covered built.1.roomId base) (fun _ _ kept => kept)
      (fun _ _ kept _ => kept))
    rintro _ numberedTables ⟨coveredNumbered, events, leaves⟩
    have rest := appendBuiltPdu_grown builder sender built.1 built.2 numberedTables
    apply Ends.bind (rest.mono fun after grown => ?_) fun _ _ kept => kept
    rcases grown with unchanged | ⟨numbered, appended⟩
    · exact unchanged ▸ coveredNumbered
    · rw [appended]
      apply coveredNumbered.append _ numbered
      · simp
      · intro leaf mem
        left
        simpa using mem
      · grind
      · rw [events, same]
        exact new

end Build

/-- What adds events to rooms: the number of a new room, a local event, the create event of a room that it
    names, and an event that another server sent, first among the outliers. -/
inductive RoomCall where
  | number (roomId : RoomId)
  | outlier (pdu : Event)
  | build (builder : Builder) (pdu : PduBuilder) (sender : UserId) (roomId : RoomId)
  | create (builder : Builder) (pdu : PduBuilder) (sender : UserId) (placeholder : RoomId)
  | upgrade (handler : Handler) (incoming : Incoming)

namespace RoomCall

def perform : RoomCall → TimelineAction Unit
  | outlier pdu => Action.modify fun tables => tables.addPduOutlier pdu
  | number roomId => do
    let _ ← getOrCreateShortroomid roomId
    return ()
  | build builder pdu sender roomId => do
    let _ ← buildAndAppendPdu builder pdu sender roomId
    return ()
  | create builder pdu sender placeholder => do
    let _ ← buildAndAppendCreatePdu builder pdu sender placeholder
    return ()
  | upgrade handler incoming => do
    let _ ← upgradeOutlierToTimelinePdu handler incoming
    return ()

/-- Local events get an ID of their own, and an incoming event is handled under the room that it names. -/
def Proper (tables : Tables) : RoomCall → Prop
  | number _ => True
  | outlier _ => True
  | build builder pdu sender roomId => FreshId builder pdu sender roomId tables
  | create builder pdu sender placeholder => FreshId builder pdu sender placeholder tables
  | upgrade _ incoming => incoming.pdu.roomId = incoming.roomId

/-- An event of a room that exists is built on all of the room's forward extremities. -/
def Narrow (tables : Tables) : RoomCall → Prop
  | build _ _ _ roomId => (tables.pduleaves roomId).card ≤ maxPrevEvents
  | _ => True

end RoomCall

structure RoomStep (before : Tables) (call : RoomCall) (after : Tables) : Prop where
  proper : call.Proper before
  ran : ∃ outcome, call.perform before = (outcome, after) ∧
    ((∃ value, outcome = .ok value) ∨ ∃ error, outcome = .fail error)

structure NarrowStep (before : Tables) (call : RoomCall) (after : Tables) : Prop extends RoomStep before call after where
  narrow : call.Narrow before

theorem NarrowStep.covered {before after : Tables} {call : RoomCall} (step : NarrowStep before call after)
    (covered : before.graph.Covered) : after.graph.Covered := by
  obtain ⟨⟨proper, outcome, ran, returned⟩, narrow⟩ := step
  have ends : Ends call.perform before (fun after => after.graph.Covered) := by
    cases call with
    | outlier pdu => exact covered
    | number roomId =>
      exact Ends.bind (wp_mono (getOrCreateShortroomid_covered roomId covered) (fun _ _ kept => kept.1)
        (fun _ _ kept _ => kept)) fun _ _ kept => kept
    | build builder pdu sender roomId =>
      exact Ends.bind (build_covered builder pdu sender roomId covered proper narrow) fun _ _ kept => kept
    | create builder pdu sender placeholder =>
      exact Ends.bind (create_covered builder pdu sender placeholder covered proper) fun _ _ kept => kept
    | upgrade handler incoming =>
      exact Ends.bind (upgrade_covered handler incoming covered proper) fun _ _ kept => kept
  exact ends.holds ran returned

theorem covered_empty : Tables.empty.graph.Covered where
  numbered _ _ inside := by
    obtain ⟨_, found⟩ := inside
    cases found
  held _ _ mem := by cases mem
  covers _ _ inside := by
    obtain ⟨_, found⟩ := inside
    cases found

/-- In every run from the empty tables in which local events are built on all forward extremities, each
    event of a room's timeline is a forward extremity or an ancestor of one. -/
theorem extremities_cover_room {calls : List RoomCall} {tables : Tables}
    (run : Run NarrowStep Tables.empty calls tables) (roomId : RoomId) (id : EventId) (row : TimelineRow id)
    (accepted : tables.timeline id = some row) (here : row.pdu.roomId = roomId) :
    ∃ leaf ∈ tables.pduleaves roomId, tables.graph.growth.Reaches id leaf := by
  have covered := run.invariant (fun tables => tables.graph.Covered)
    (fun _ _ _ covered step => step.covered covered) covered_empty
  apply covered.covers roomId id
  refine ⟨row.pdu.prevEvents, ?_⟩
  change (tables.timeline id).map _ = _
  rw [accepted, ← here]
  rfl

namespace Sample

open Phantom.Timeline.Sample (room builds builder tables)
open Phantom.Matrix.Sample (alice)

instance (builder : Builder) (pdu : PduBuilder) (sender : UserId) (roomId : RoomId) (tables : Tables) :
    Decidable (FreshId builder pdu sender roomId tables) :=
  match ran : buildHashAndSignEvent builder pdu sender roomId tables with
  | (.ok built, _) =>
    decidable_of_iff (tables.timeline built.1.eventId = none ∧
      (built.1.roomId = roomId ∨ tables.shortroomids built.1.roomId = none))
      ⟨fun fresh _ _ other => by cases ran.symm.trans other; exact fresh, fun fresh => fresh built _ ran⟩
  | (.error _, _) => .isTrue fun _ _ other => by cases ran.symm.trans other

instance (tables : Tables) (call : RoomCall) : Decidable (call.Proper tables) := by
  cases call <;> unfold RoomCall.Proper <;> infer_instance

instance (tables : Tables) (call : RoomCall) : Decidable (call.Narrow tables) := by
  cases call <;> unfold RoomCall.Narrow <;> infer_instance

variable (tables : Tables)

def play (call : RoomCall) : Option Tables :=
  if call.Proper tables then
    match call.perform tables with
    | (.ok _, after) => some after
    | (.error _, _) => none
  else none

variable {before : Tables} {call : RoomCall} {after : Tables}

theorem play_step (played : play before call = some after) : RoomStep before call after := by
  unfold play at played
  split at played
  · next proper =>
    split at played
    · next value t ran =>
      cases played
      exact ⟨proper, .ok value, ran, Or.inl ⟨value, rfl⟩⟩
    · cases played
  · cases played

def playNarrow (call : RoomCall) : Option Tables :=
  if call.Narrow tables then play tables call else none

theorem playNarrow_step (played : playNarrow before call = some after) : NarrowStep before call after := by
  unfold playNarrow at played
  split at played
  · next narrow => exact ⟨play_step played, narrow⟩
  · cases played

def bobSays (number : Nat) : Incoming where
  pdu := {
    eventId := ⟨"$says" ++ String.ofList (List.replicate number 'a')⟩, roomId := room, sender := bob,
    originServerTs := 2, eventType := .ofString "m.room.message", content := .object [("body", .string "hi")],
    stateKey := none, prevEvents := [⟨"$join"⟩], authEvents := [⟨"$m.room.create"⟩, ⟨"$join"⟩], redacts := none }
  value := .empty
  origin := ⟨"there"⟩
  roomId := room

def aliceSays : RoomCall :=
  .build builder ⟨.ofString "m.room.message", .object [("body", .string "hi")], [], none, none, none⟩ alice room

def conversation (messages : Nat) : List RoomCall :=
  .number room :: builds.map (fun pdu => .build builder pdu alice room) ++
    (bobJoins (.object []) :: (List.range messages).map bobSays).flatMap
      (fun incoming => [.outlier incoming.pdu, .upgrade handler incoming]) ++ [aliceSays]

def holds (id : EventId) : Bool := (tables.timeline id).any fun row => row.pdu.roomId = room

theorem exists_row {t : Tables} {id : EventId} (held : holds t id = true) :
    ∃ row, t.timeline id = some row ∧ row.pdu.roomId = room := by
  obtain ⟨row, found, here⟩ := (Option.any_eq_true _ _).mp held
  exact ⟨row, found, of_decide_eq_true here⟩

def message : EventId := ⟨"$m.room.message"⟩

def remembered : List EventId :=
  message :: (List.range maxPrevEvents).map (fun number => (bobSays number).pdu.eventId) ++
    [⟨"$join"⟩, ⟨"$m.room.join_rules"⟩, ⟨"$m.room.member@alice:hs"⟩, ⟨"$m.room.create"⟩]

def forgets (id : EventId) : Bool :=
  holds tables id && tables.getForwardExtremities room = [message] && id ∉ remembered &&
    remembered.all fun node => (tables.graph.growth node).all fun previous => previous ⊆ remembered

theorem extremity_dropped : ∃ tables, Run RoomStep .empty (conversation 21) tables ∧ ∃ row,
      tables.timeline (bobSays 20).pdu.eventId = some row ∧ row.pdu.roomId = room ∧
        ∀ leaf ∈ tables.pduleaves room, ¬ tables.graph.growth.Reaches (bobSays 20).pdu.eventId leaf := by
  have evaluated : ((conversation 21).foldlM play .empty).any
      (fun tables => forgets tables (bobSays 20).pdu.eventId) = true := by decide +kernel
  obtain ⟨tables, played, forgotten⟩ := (Option.any_eq_true _ _).mp evaluated
  simp only [forgets, Bool.and_eq_true, decide_eq_true_eq, List.all_eq_true] at forgotten
  obtain ⟨⟨⟨held, leaves⟩, outside⟩, closed⟩ := forgotten
  obtain ⟨row, found, here⟩ := exists_row held
  refine ⟨tables, .of_foldlM (fun _ _ _ => play_step) played, row, found, here, ?_⟩
  intro leaf member
  have only : leaf = message := by
    rw [← Tables.mem_getForwardExtremities, leaves] at member
    exact List.mem_singleton.mp member
  have inside : leaf ∈ remembered := only ▸ List.mem_cons_self ..
  apply Growth.not_reaches_of_closed inside outside
  intro node previous known follows older earlier
  have within := closed node known
  rw [follows] at within
  exact of_decide_eq_true within earlier

theorem extremities_cover_conversation :
    ∃ tables, Run NarrowStep .empty (conversation 2) tables ∧ (tables.pduleaves room).Nonempty ∧
      ∃ leaf ∈ tables.pduleaves room, tables.graph.growth.Reaches (bobSays 1).pdu.eventId leaf := by
  have evaluated : ((conversation 2).foldlM playNarrow .empty).any
      (fun tables => holds tables (bobSays 1).pdu.eventId) = true := by decide +kernel
  obtain ⟨tables, played, held⟩ := (Option.any_eq_true _ _).mp evaluated
  obtain ⟨row, found, here⟩ := exists_row held
  have run : Run NarrowStep .empty (conversation 2) tables := .of_foldlM (fun _ _ _ => playNarrow_step) played
  have covered := extremities_cover_room run room _ row found here
  obtain ⟨leaf, member, reaches⟩ := covered
  exact ⟨tables, run, ⟨leaf, member⟩, leaf, member, reaches⟩

end Sample

end Phantom.EventHandler
