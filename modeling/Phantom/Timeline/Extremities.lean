import Phantom.Timeline.RoomGraph

namespace Phantom.Timeline

open Phantom.Lib Phantom.Matrix Phantom.Rooms Action Function
open Phantom.StateRes (RoomVersionId RoomVersion)

variable {before after : Tables}

def graphOf (appended : (RoomId → Option ShortRoomId) × (RoomId → Finset EventId) ×
    ((id : EventId) → Option (TimelineRow id))) : RoomGraph where
  shortroomids := appended.1
  pduleaves := appended.2.1
  events id := (appended.2.2 id).map fun row => (row.pdu.roomId, row.pdu.prevEvents)

def Tables.graph (tables : Tables) : RoomGraph := graphOf tables.appended

theorem graph_of_placed (kept : after.placed = before.placed) : after.graph = before.graph :=
  congrArg graphOf (congrArg Prod.snd kept)

theorem graph_of_standing (kept : after.standing = before.standing) : after.graph = before.graph :=
  graph_of_placed (congrArg Prod.fst kept)

section Redaction

variable (contents : Contents)

theorem graph_replacePdu {t : Tables} {id : EventId} {row : TimelineRow id} {content : Json}
    {json : CanonicalJsonObject} (found : t.timeline id = some row) :
    (t.replacePdu row content json).graph = t.graph := by
  have events : (t.replacePdu row content json).graph.events = t.graph.events := by
    simp only [Tables.graph, graphOf, Tables.appended, Tables.replacePdu]
    grind
  exact congrArg (fun events => RoomGraph.mk t.shortroomids t.pduleaves events) events

theorem keepsGraph_redactPdu (id : EventId) (reason : Event) : Keeps Tables.graph (redactPdu contents id reason) := by
  apply Keeps.of_wp
  intro t
  rw [redactPdu, wp_bind, wp_get]
  split
  · exact rfl
  · next row found =>
    split
    · exact rfl
    · apply wp_seq ((keepsStanding_getRoomVersion contents row.pdu.roomId).wp rfl) _ (fun _ _ => graph_of_standing)
      intro roomVersion after kept
      have g := graph_of_standing kept
      have timeline : after.timeline = t.timeline := congrArg (fun view => view.1.2.2.2) kept
      rw [wp_bind]
      apply wp_lift
      · intro redacted _
        exact (graph_replacePdu (timeline ▸ found)).trans g
      · exact fun _ _ => g

theorem keepsGraph_actOnKind (pdu : Event) : Keeps Tables.graph (actOnKind contents pdu) := by
  have standing : ∀ {α : Type} {action : TimelineAction α}, KeepsStanding action → Keeps Tables.graph action :=
    fun kept => kept.comp fun view => graphOf view.1.2
  unfold actOnKind
  split
  · apply Keeps.bind (standing (keepsStanding_getRoomVersion contents pdu.roomId))
    grind [Keeps.bind, Keeps.lift, Keeps.pure, keepsStanding_userCanRedact, keepsGraph_redactPdu]
  · exact .pure _

end Redaction

def Grown (pdu : Event) (leafs : List EventId) (before after : Tables) : Prop :=
  after.graph = before.graph ∨ (before.shortroomids pdu.roomId ≠ none ∧
      after.graph = before.graph.append pdu.roomId pdu.eventId pdu.prevEvents leafs.toFinset)

variable {middle : Tables}

theorem Grown.settled {pdu : Event} {leafs : List EventId} (grown : Grown pdu leafs before middle)
    (same : after.graph = middle.graph) : Grown pdu leafs before after := by
  rcases grown with kept | ⟨numbered, appended⟩
  · exact Or.inl (same.trans kept)
  · exact Or.inr ⟨numbered, same.trans appended⟩

theorem Grown.from_same {pdu : Event} {leafs : List EventId} (grown : Grown pdu leafs middle after)
    (same : middle.graph = before.graph) : Grown pdu leafs before after := by
  have rooms : middle.shortroomids = before.shortroomids := congrArg RoomGraph.shortroomids same
  rcases grown with kept | ⟨numbered, appended⟩
  · exact Or.inl (kept.trans same)
  · exact Or.inr ⟨rooms ▸ numbered, same ▸ appended⟩

section Append

variable (contents : Contents) (pdu : Event) (pduJson : CanonicalJsonObject) (leafs : List EventId) (t : Tables)

theorem graph_fileTimeline (pduId : PduId) : (t.fileTimeline pduId pdu pduJson).graph = { t.graph with
        events := update t.graph.events pdu.eventId (some (pdu.roomId, pdu.prevEvents)) } := by
  have events : (t.fileTimeline pduId pdu pduJson).graph.events =
      update t.graph.events pdu.eventId (some (pdu.roomId, pdu.prevEvents)) := by
    simp only [Tables.graph, graphOf, Tables.appended, Tables.fileTimeline]
    grind
  exact congrArg (fun events => RoomGraph.mk t.shortroomids t.pduleaves events) events

theorem insert_graph (shortroomid : ShortRoomId) : (Timeline.insert pdu pduJson shortroomid).wp t
      (fun _ after => after.graph = { t.graph with
        events := update t.graph.events pdu.eventId (some (pdu.roomId, pdu.prevEvents)) })
      (fun _ _ => True) := by
  have counted : ∀ t : Tables, (onRooms nextCount).wp t (fun _ after => after.graph = t.graph) (fun _ _ => True) := by
    intro t
    exact wp_mono (((keepsAppended_onRooms nextCount).comp graphOf).wp rfl) (fun _ _ same => same)
      (fun _ _ _ => True.intro)
  apply wp_seq (counted t) _ fun _ _ _ => True.intro
  intro _ first firstKept
  apply wp_seq (counted first) _ fun _ _ _ => True.intro
  intro _ second secondKept
  apply wp_seq (counted second) _ fun _ _ _ => True.intro
  grind [wp_bind, wp_modify, wp_pure, graph_fileTimeline]

theorem write_graph (shortroomid : ShortRoomId) : (do
      Action.modify fun t => t.setForwardExtremities pdu.roomId leafs
      let pduId ← Timeline.insert pdu pduJson shortroomid
      let _ ← (actOnKind contents pdu).attempt
      return pduId : TimelineAction PduId).wp t
      (fun _ after => after.graph = t.graph.append pdu.roomId pdu.eventId pdu.prevEvents leafs.toFinset)
      (fun _ _ => True) := by
  rw [wp_bind, wp_modify]
  apply wp_seq (insert_graph pdu pduJson _ shortroomid) _ fun _ _ _ => True.intro
  intro pduId inserted appended
  apply wp_seq ((keepsGraph_actOnKind contents pdu).attempt.wp appended) _ fun _ _ _ => True.intro
  exact fun _ _ kept => kept

theorem appendPdu_grown : Ends (appendPdu contents pdu pduJson leafs) t (Grown pdu leafs t) := by
  rw [appendPdu, Ends, wp_bind, wp_get, wp_bind]
  apply wp_lift _ fun _ _ _ => Or.inl rfl
  intro shortroomid found
  have numbered : t.shortroomids pdu.roomId ≠ none := by
    rw [Outcome.ofOption_eq_ok.mp found]
    exact Option.some_ne_none _
  apply Ends.after_keeps (keepsStanding_addPrevContent contents pdu pduJson) rfl
    (fun _ kept => Or.inl (graph_of_standing kept))
  intro pduJson added kept
  apply Ends.of_never (never_write contents pdu pduJson shortroomid leafs)
  refine wp_mono (write_graph contents pdu pduJson leafs added shortroomid) ?_ fun _ _ _ => True.intro
  intro pduId after appended
  rw [graph_of_standing kept] at appended
  exact Or.inr ⟨numbered, appended⟩

end Append

section Build

variable (builder : Builder) (pdu : PduBuilder) (sender : UserId) (roomId : RoomId)

theorem keepsStanding_roomVersionFor : KeepsStanding (roomVersionFor builder pdu roomId) := by
  apply Keeps.bind (keepsStanding_getRoomVersion _ roomId).attempt
  grind [Keeps.pure, Keeps.lift]

variable (roomVersion : RoomVersion)

theorem keepsStanding_getAuthEvents : KeepsStanding (getAuthEvents builder roomId roomVersion pdu sender) := by
  apply Keeps.bind .get
  grind [Keeps.pure, Keeps.bind, Keeps.mapErr, Keeps.lift, Keeps.attempt, keepsStanding_loadFullState, Keeps.get]

theorem keepsStanding_createEventFor : KeepsStanding (createEventFor pdu roomId roomVersion) := by
  grind [Keeps.attempt, keepsStanding_roomStateGet, Keeps.pure, createEventFor]

theorem keepsStanding_unsignedFor : KeepsStanding (unsignedFor pdu roomId) := by
  grind [Keeps.pure, Keeps.bind, Keeps.attempt, keepsStanding_roomStateGet, unsignedFor]

theorem keepsStanding_checkAuth (event : Event) (fetch : TypeStateKey → Option Event) :
    KeepsStanding (checkAuth builder roomVersion event fetch) := by
  apply Keeps.bind (Keeps.mapErr (.lift _))
  intro allowed
  split
  · exact .pure _
  · exact .lift _

theorem signPdu_spec (roomVersionId : RoomVersionId) (roomVersion : RoomVersion) (event : Event)
    (unsigned : List (String × Json)) (fetch : TypeStateKey → Option Event) {base t : Tables}
    (kept : t.standing = base.standing) : (signPdu builder roomVersionId roomVersion event unsigned fetch).wp t
      (fun built after => built.1.prevEvents = event.prevEvents ∧ after.standing = base.standing)
      (fun _ after => after.standing = base.standing) := by
  unfold signPdu
  split
  · rw [wp_bind]
    apply wp_lift
    · intro signed _
      simp only [deriveRoom]
      rw [wp_bind]
      apply wp_lift
      · intro derived _
        exact wp_then ((keepsStanding_checkAuth builder _ _ _).wp kept) fun _ _ kept => ⟨rfl, kept⟩
      · exact fun _ _ => kept
    · exact fun _ _ => kept
  · apply wp_then ((keepsStanding_checkAuth builder _ _ _).wp kept)
    intro _ checked kept
    rw [wp_bind]
    apply wp_lift
    · exact fun _ _ => ⟨rfl, kept⟩
    · exact fun _ _ => kept

theorem buildHashAndSignEvent_spec (t : Tables) : (buildHashAndSignEvent builder pdu sender roomId).wp t
      (fun built after => built.1.prevEvents = (t.getForwardExtremities roomId).take maxPrevEvents ∧
        after.standing = t.standing) (fun _ after => after.standing = t.standing) := by
  rw [buildHashAndSignEvent, wp_bind, wp_get]
  apply wp_then ((keepsStanding_roomVersionFor builder pdu roomId).wp rfl)
  intro roomVersionId versioned kept
  rw [wp_bind]
  refine wp_lift ?_ fun _ _ => kept
  intro roomVersion _
  apply wp_then ((keepsStanding_getAuthEvents builder pdu sender roomId roomVersion).wp kept)
  intro authEvents authorized kept
  apply wp_then ((keepsStanding_createEventFor pdu roomId roomVersion).wp kept)
  intro createEvent created kept
  apply wp_then ((keepsStanding_unsignedFor pdu roomId).wp kept)
  intro unsigned noted kept
  apply wp_then (signPdu_spec builder roomVersionId roomVersion _ unsigned _ kept)
  rintro built signed ⟨follows, kept⟩
  apply wp_then ((keepsStanding_onRooms (keepsRooms_getOrCreateShorteventid built.1.eventId)).wp kept)
  exact fun _ _ kept => ⟨follows, kept⟩

variable (event : Event)

theorem keepsStanding_checkBuilt :
    KeepsStanding (checkBuiltAdmin builder event sender) ∧ KeepsStanding (checkBuiltRedaction builder event) ∧
      KeepsStanding (checkBuiltMember builder event) := by
  refine ⟨?_, ?_, ?_⟩
  · apply Keeps.bind .get
    intro t
    split
    · exact .lift _
    · exact .pure _
  · grind [Keeps.bind, keepsStanding_getRoomVersion, Keeps.lift, Keeps.pure, keepsStanding_userCanRedact,
      checkBuiltRedaction]
  · grind [Keeps.bind, Keeps.lift, Keeps.pure, checkBuiltMember]

theorem appendBuiltPdu_grown (pduJson : CanonicalJsonObject) (t : Tables) :
    Ends (appendBuiltPdu builder event pduJson sender) t (Grown event [event.eventId] t) := by
  obtain ⟨admin, redaction, mem⟩ := keepsStanding_checkBuilt builder sender event
  have early : ∀ after : Tables, after.standing = t.standing → Grown event [event.eventId] t after :=
    fun _ kept => Or.inl (graph_of_standing kept)
  apply Ends.after_keeps admin rfl early
  intro _ first kept
  apply Ends.after_keeps redaction kept early
  intro _ second kept
  apply Ends.after_keeps mem kept early
  intro _ third kept
  have stateKept := (keepsAppended_onRooms
    (appendToState ⟨event.eventId, event.roomId, event.eventType, event.stateKey⟩)).comp graphOf
  apply Ends.after_keeps stateKept (graph_of_standing kept) fun _ => Or.inl
  intro statehashid stated base
  have appended := appendPdu_grown builder.contents event pduJson [event.eventId] stated
  apply Ends.bind (appended.mono fun after grown => grown.from_same base)
  intro pduId after grown
  have kept : Keeps Tables.graph (do
      Action.modify fun t => { t with rooms := setRoomState event.roomId statehashid t.rooms }
      let t ← Action.get
      Action.lift (builder.sendPduServers t event pduId)
      return event.eventId : TimelineAction EventId) := by
    refine Keeps.bind (.modify fun _ => rfl) ?_
    grind [Keeps.bind, Keeps.get, Keeps.lift, Keeps.pure]
  exact .of_keeps kept fun _ same => grown.settled same

end Build

end Phantom.Timeline
