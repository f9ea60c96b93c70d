import Phantom.EventHandler.Upgrade
import Phantom.Timeline.Frames

namespace Phantom.EventHandler

open Phantom.Lib Phantom.Matrix Phantom.Rooms Phantom.Timeline Action
open Phantom.StateRes (RoomVersionId RoomVersion StateMap)

/-- What other servers may hand over. -/
def Handler.Hands (handler : Handler) (pdu : Event) : Prop :=
  ∃ tables origin events, pdu ∈ handler.handledOutliers tables origin events

/-- Nothing is placed anew, and no event is stored but what is handed over. -/
structure Fetched (handler : Handler) (before after : Tables) : Prop where
  placed : after.placed = before.placed
  stored : ∀ id pdu, after.getPdu id = some pdu → before.getPdu id = some pdu ∨ handler.Hands pdu

abbrev Fetches {α : Type} (handler : Handler) (action : TimelineAction α) : Prop := ∀ t, Fetched handler t (action t).2

section Fetched

variable {handler : Handler} {α β : Type} {action : TimelineAction α}

theorem Fetched.trans {before middle after : Tables} (first : Fetched handler before middle)
    (second : Fetched handler middle after) : Fetched handler before after where
  placed := second.placed.trans first.placed
  stored id pdu found := (second.stored id pdu found).elim (first.stored id pdu) Or.inr

theorem fetches_of_keeps (kept : KeepsStanding action) : Fetches handler action := fun t =>
  ⟨congrArg Prod.fst (kept t), fun _ _ found => Or.inl (getPdu_of_standing (kept t) ▸ found)⟩

theorem fetches_bind {next : α → TimelineAction β} (first : Fetches handler action)
    (second : ∀ value, Fetches handler (next value)) : Fetches handler (action >>= next) := by
  intro t
  have kept := first t
  simp only [Bind.bind]
  cases ran : action t with
  | mk outcome after =>
    rw [ran] at kept
    cases outcome with
    | ok value => exact kept.trans (second value after)
    | error failure => exact kept

end Fetched

section States

variable (handler : Handler) (prevEvent : EventId)

theorem keepsStanding_insertPrev (prevPdu : Event) (s : StateAtEvent) :
    KeepsStanding (insertPrev prevEvent prevPdu s) := by
  grind [Keeps.pure, Keeps.bind, keepsStanding_onRooms, keepsRooms_getOrCreateShortstatekey, insertPrev]

theorem keepsStanding_stateAtIncomingDegreeOne : KeepsStanding (stateAtIncomingDegreeOne prevEvent) := by
  apply Keeps.bind (keepsStanding_readRow _).attempt
  grind [Keeps.pure, Keeps.bind, keepsStanding_stateFullIds, Keeps.get, keepsStanding_insertPrev]

theorem keepsStanding_shorten (s : StateMap EventId) : KeepsStanding (shorten handler s) := by
  apply Keeps.foldlM
  intro shortened entry
  exact .bind (keepsStanding_onRooms (keepsRooms_getOrCreateShortstatekey _ _)) fun _ => .pure _

variable (roomId : RoomId)

theorem keepsStanding_forkOf (s : StateAtEvent) : KeepsStanding (forkOf handler roomId s) := by
  apply Keeps.bind (.bind .get fun _ => .pure _)
  intro authChain
  apply Keeps.bind (.bind .get fun _ => .pure _)
  exact fun _ => .pure _

theorem keepsStanding_resolveForks (roomVersionId : RoomVersionId)
    (forks : List (StateMap EventId × Finset EventId)) :
    KeepsStanding (resolveForks handler roomVersionId forks) := by
  intro t
  apply Keeps.bind (Keeps.mapErr (.lift _))
  exact fun _ => keepsStanding_shorten handler _

theorem keepsStanding_forksAfter (prevEvents : List EventId) :
    KeepsStanding (forksAfter handler roomId prevEvents) := by
  induction prevEvents with
  | nil => exact .pure _
  | cons prevEventId prevEvents ih =>
    apply Keeps.bind .get
    intro t
    split
    · exact .pure _
    · apply Keeps.bind (keepsStanding_readRow _).attempt
      intro hash
      split
      · exact .pure _
      · grind [Keeps.bind, keepsStanding_stateFullIds, keepsStanding_insertPrev, keepsStanding_forkOf, Keeps.pure]

theorem keepsStanding_stateAtIncomingResolved (prevEvents : List EventId) (roomId : RoomId)
    (roomVersionId : RoomVersionId) :
    KeepsStanding (stateAtIncomingResolved handler prevEvents roomId roomVersionId) := by
  apply Keeps.bind (keepsStanding_forksAfter handler roomId prevEvents)
  grind [Keeps.pure, Keeps.bind, keepsStanding_resolveForks]

variable (pdus : List Event) (origin : ServerName)

theorem fetched_addPduOutlier (handed : ∀ pdu ∈ pdus, handler.Hands pdu) (t : Tables) :
    Fetched handler t (pdus.foldl Tables.addPduOutlier t) := by
  induction pdus generalizing t with
  | nil => exact ⟨rfl, fun _ _ => Or.inl⟩
  | cons pdu pdus ih =>
    obtain ⟨hands, handed⟩ := List.forall_mem_cons.mp handed
    have first : Fetched handler t (t.addPduOutlier pdu) := by
      refine ⟨rfl, fun id stored found => ?_⟩
      by_cases same : id = pdu.eventId
      · subst same
        unfold Tables.getPdu Tables.addPduOutlier at found
        rw [Tables.getPdu]
        cases filed : t.timeline pdu.eventId with
        | some row => exact Or.inl (by simpa [filed] using found)
        | none =>
          have own : pdu = stored := by simpa [filed] using found
          exact Or.inr (own ▸ hands)
      · refine Or.inl ?_
        simpa [Tables.getPdu, Tables.addPduOutlier, Function.update_of_ne same] using found
    exact first.trans (ih handed _)

theorem fetches_fetchAndHandleOutliers (events : List EventId) :
    Fetches handler (fetchAndHandleOutliers handler origin events) := by
  refine fetches_bind (fun t => ?_) fun _ => fetches_of_keeps (.bind .get fun _ => .pure _)
  exact fetched_addPduOutlier handler _ (fun pdu mem => ⟨t, origin, events, mem⟩) t

theorem keepsStanding_placeFetched (s : StateAtEvent) : KeepsStanding (placeFetched pdus s) := by
  induction pdus generalizing s with
  | nil => exact .pure _
  | cons pdu pdus ih =>
    grind [Keeps.bind, keepsStanding_onRooms, keepsRooms_getOrCreateShortstatekey, Keeps.pure, placeFetched]

theorem fetches_fetchState (eventId : EventId) : Fetches handler (fetchState handler origin eventId) := by
  unfold fetchState
  split
  · exact fetches_of_keeps (.pure _)
  · refine fetches_bind (fetches_fetchAndHandleOutliers handler origin _) fun _ =>
      fetches_bind (fetches_fetchAndHandleOutliers handler origin _) fun events => fetches_of_keeps ?_
    grind [Keeps.bind, keepsStanding_placeFetched, Keeps.pure, keepsStanding_onRooms, keepsRooms_getOrCreateShortstatekey]

theorem keepsStanding_compress (s : StateAtEvent) : KeepsStanding (compress handler s) := by
  apply Keeps.foldlM
  intro compressed entry
  exact .bind (keepsStanding_onRooms (keepsRooms_getOrCreateShorteventid _)) fun _ => .pure _

theorem keepsStanding_resolveState (roomVersionId : RoomVersionId) (incomingState : StateAtEvent) :
    KeepsStanding (resolveState handler roomId roomVersionId incomingState) := by
  apply Keeps.bind (Keeps.mapErr (keepsStanding_readRow _))
  grind [Keeps.bind, keepsStanding_stateFullIds, keepsStanding_forkOf, keepsStanding_resolveForks, keepsStanding_compress]

end States

section Checks

variable (handler : Handler) (incoming : Incoming) (roomVersionId : RoomVersionId)

theorem keepsStanding_storedStateAtEvent : KeepsStanding (storedStateAtEvent handler incoming roomVersionId) := by
  grind [keepsStanding_stateAtIncomingDegreeOne, keepsStanding_stateAtIncomingResolved, storedStateAtEvent]

theorem fetches_stateAtEvent : Fetches handler (stateAtEvent handler incoming roomVersionId) := by
  refine fetches_bind (fetches_of_keeps (keepsStanding_storedStateAtEvent handler incoming roomVersionId)) fun found => ?_
  split
  · exact fetches_of_keeps (.pure _)
  · refine fetches_bind (fetches_fetchState handler _ _) fun fetched => fetches_of_keeps ?_
    grind [Keeps.pure, Keeps.lift]

theorem keepsStanding_authCheck (roomVersion : RoomVersion) (pdu : Event) (fetch : TypeStateKey → Option Event) :
    KeepsStanding (authCheck handler roomVersion pdu fetch) := Keeps.mapErr (.lift _)

theorem keepsStanding_softFailOf (authorizedNow : Bool) :
    KeepsStanding (softFailOf handler incoming roomVersionId authorizedNow) := by
  unfold softFailOf
  grind [Keeps.pure, Keeps.bind, keepsStanding_userCanRedact]

theorem fetches_checkIncoming : Fetches handler (checkIncoming handler incoming) := by
  refine fetches_bind (fetches_of_keeps (keepsStanding_getRoomVersion _ _)) fun roomVersionId =>
    fetches_bind (fetches_of_keeps (Keeps.mapErr (.lift _))) fun roomVersion =>
    fetches_bind (fetches_stateAtEvent handler incoming roomVersionId) fun s => fetches_of_keeps ?_
  apply Keeps.bind (.bind .get fun _ => keepsStanding_authCheck handler _ _ _)
  intro authorized
  split
  · exact .lift _
  · apply Keeps.bind (.bind .get fun _ => keepsStanding_authCheck handler _ _ _)
    intro authorizedNow
    apply Keeps.bind (keepsStanding_softFailOf handler incoming _ _)
    intro softFail
    apply Keeps.bind (keepsStanding_insertPrev _ _ _)
    grind [Keeps.bind, keepsStanding_compress, Keeps.pure]

variable (roomId : RoomId)

theorem keepsStanding_updateMember (event : CompressedStateEvent) :
    KeepsStanding (updateMember handler roomId event) := by
  apply Keeps.bind .get
  grind [Keeps.pure, Keeps.lift]

theorem keepsStanding_updateMembers (events : List CompressedStateEvent) :
    KeepsStanding (events.foldlM (fun _ event => updateMember handler roomId event) ()) :=
  Keeps.foldlM (fun _ _ => keepsStanding_updateMember handler roomId _) events ()

theorem keepsStored_installAfter (after : StateAtEvent) :
    Keeps (fun t => (t.appended, t.outliers)) (installAfter handler incoming roomVersionId after) := by
  unfold installAfter
  split
  · apply Keeps.bind ((keepsStanding_resolveState handler _ _ _).comp fun view => (view.1.2, view.2))
    intro resolved
    apply Keeps.bind fun _ => rfl
    intro saved
    apply Keeps.bind ((keepsStanding_updateMembers handler _ _).comp fun view => (view.1.2, view.2))
    exact fun _ => .modify fun _ => rfl
  · exact .pure _

end Checks

end Phantom.EventHandler
