import Phantom.AuthChain.Shorts

namespace Phantom.AuthChain

open Phantom.Lib Phantom.Lib.Search Phantom.Matrix Phantom.Rooms Relation

structure Grown (world after : World) : Prop where
  short : Extends world.short after.short
  listed : Listed after.short
  rest : after = { world with short := after.short }

/-- The short IDs are those of the events of a kind, each of which has one. -/
structure Stands (store : Rooms.Store) (shorts : List ShortEventId) (Event : EventId → Prop) : Prop where
  exact : ∀ short, short ∈ shorts ↔ ∃ eventId, Event eventId ∧ store.shorteventids eventId = some short
  total : ∀ eventId, Event eventId → ∃ short, store.shorteventids eventId = some short

def Graph.known (graph : Graph) (stored : List EventId) (eventId : EventId) : List EventId :=
  if eventId ∈ stored then graph.authEvents eventId else []

def Strays (graph : Graph) (roomId : RoomId) (stored todo : List EventId) : Prop :=
  ∃ start ∈ todo, ∃ eventId, ReflTransGen (Step (graph.known stored)) start eventId ∧ (graph eventId).roomId ≠ roomId

section Stands

variable {before after store : Rooms.Store} {shorts more : List ShortEventId} {Event Other : EventId → Prop}
variable {eventId : EventId} {short : ShortEventId}

theorem Stands.nil (store : Rooms.Store) : Stands store [] (fun _ => False) := ⟨fun _ => by simp, nofun⟩

theorem Stands.congr (stands : Stands store shorts Event) (shown : ∀ short, short ∈ more ↔ short ∈ shorts)
    (same : ∀ eventId, Event eventId ↔ Other eventId) : Stands store more Other where
  exact := by
    grind [Stands.exact]
  total := fun eventId mem => stands.total eventId ((same eventId).mpr mem)

theorem Stands.extend (stands : Stands before shorts Event) (extended : Extends before after) :
    Stands after shorts Event where
  exact := by
    intro short
    rw [stands.exact]
    constructor
    · grind [Extends.shorts]
    · intro held
      obtain ⟨eventId, mem, row⟩ := held
      obtain ⟨n, earlier⟩ := stands.total eventId mem
      grind [Extends.shorts]
  total := by
    intro eventId mem
    obtain ⟨short, row⟩ := stands.total eventId mem
    exact ⟨short, extended.shorts eventId short row⟩

theorem Stands.mem_iff (stands : Stands store shorts Event) (listed : Listed store)
    (row : store.shorteventids eventId = some short) : short ∈ shorts ↔ Event eventId := by
  grind [Stands.exact, Listed.injective]

theorem Stands.append (left : Stands store shorts Event) (right : Stands store more Other) :
    Stands store (shorts ++ more) (fun eventId => Event eventId ∨ Other eventId) where
  exact := by
    grind [Stands.exact]
  total := by
    intro eventId mem
    rcases mem with mem | mem
    · exact left.total eventId mem
    · exact right.total eventId mem

theorem Stands.single (row : store.shorteventids eventId = some short) :
    Stands store [short] (fun other => other = eventId) where
  exact := by
    grind
  total := by
    intro other same
    rw [same]
    exact ⟨short, row⟩

end Stands

section Grown

variable {w middle after : World}

theorem Grown.refl (listed : Listed w.short) : Grown w w := ⟨.refl _, listed, rfl⟩

theorem Grown.trans (first : Grown w middle) (second : Grown middle after) : Grown w after where
  short := first.short.trans second.short
  listed := second.listed
  rest := by
    rw [second.rest, first.rest]

theorem Grown.stored (grown : Grown w after) : after.stored = w.stored := by
  rw [grown.rest]

end Grown

theorem onShorts_grown (eventId : EventId) {w : World} (listed : Listed w.short) :
    (onShorts (getOrCreateShorteventid eventId)).wp w
      (fun short after => Grown w after ∧ after.short.shorteventids eventId = some short)
      (fun failure after => failure = counterOverflow ∧ Grown w after) := by
  apply Action.wp_zoom
  apply Action.wp_mono (getOrCreateShorteventid_extends eventId listed)
  · intro short after held
    obtain ⟨extended, listedAfter, row⟩ := held
    exact ⟨⟨extended, listedAfter, rfl⟩, row⟩
  · intro failure after failed
    obtain ⟨rfl, rfl⟩ := failed
    exact ⟨rfl, .refl listed⟩

section Visit

variable {w : World} {found : List ShortEventId} {seen todo : List EventId}

theorem visitAuthEvent_spec (authEvent : EventId) (listed : Listed w.short)
    (stands : Stands w.short found (· ∈ seen)) : (visitAuthEvent (found, todo) authEvent).wp w
      (fun held after => Grown w after ∧ Stands after.short held.1 (· ∈ (visit (seen, todo) authEvent).1) ∧
        held.2 = (visit (seen, todo) authEvent).2)
      (fun failure after => failure = counterOverflow ∧ Grown w after) := by
  apply Action.wp_then (onShorts_grown authEvent listed)
  intro short after held
  obtain ⟨grown, row⟩ := held
  have kept := stands.extend grown.short
  have same := kept.mem_iff grown.listed row
  rw [visit]
  by_cases known : short ∈ found
  · grind [Action.wp_pure]
  · rw [if_neg known, if_neg fun mem => known (same.mpr mem), Action.wp_pure]
    refine ⟨grown, (kept.append (.single row)).congr (fun _ => Iff.rfl) ?_, rfl⟩
    intro other
    rw [List.mem_append, List.mem_singleton]

theorem visitAll_spec (authEvents : List EventId) (listed : Listed w.short)
    (stands : Stands w.short found (· ∈ seen)) : Action.wp (authEvents.foldlM visitAuthEvent (found, todo)) w
      (fun held after => Grown w after ∧ Stands after.short held.1 (· ∈ (authEvents.foldl visit (seen, todo)).1) ∧
        held.2 = (authEvents.foldl visit (seen, todo)).2)
      (fun failure after => failure = counterOverflow ∧ Grown w after) := by
  apply Action.wp_foldlM fun (done : List EventId) (held : List ShortEventId × List EventId) (after : World) =>
    Grown w after ∧ Stands after.short held.1 (· ∈ (done.foldl visit (seen, todo)).1) ∧
      held.2 = (done.foldl visit (seen, todo)).2
  · intro done authEvent held s _ before
    obtain ⟨grown, standsNow, waiting⟩ := before
    apply Action.wp_mono (visitAuthEvent_spec authEvent grown.listed standsNow)
    · grind [Grown.trans]
    · grind [Grown.trans]
  · exact ⟨.refl listed, stands, rfl⟩

end Visit

section Walk

variable {g : Graph} {roomId : RoomId} {fuel : ℕ} {found : List ShortEventId} {seen todo : List EventId}

theorem strays_later {stored : List EventId} {eventId : EventId}
    (strays : Strays g roomId stored ((g.known stored eventId).foldl visit (seen, todo)).2) :
    Strays g roomId stored (eventId :: todo) := by
  obtain ⟨start, mem, other, behind, wrong⟩ := strays
  rcases mem_visit_todo mem with earlier | ⟨later, _⟩
  · exact ⟨start, List.mem_cons_of_mem _ earlier, other, behind, wrong⟩
  · exact ⟨eventId, List.mem_cons_self, other, .head later behind, wrong⟩

/-- The walk does what the search does on the events, and fails only at the end of the counter, at an event
    of another room, or where the search does not finish. -/
theorem walk_spec {w : World} (listed : Listed w.short) (stands : Stands w.short found (· ∈ seen)) :
    (walk g roomId fuel found todo).wp w (fun chain after => Grown w after ∧
        ∃ events, search (g.known w.stored) fuel seen todo = some events ∧ Stands after.short chain (· ∈ events))
      (fun failure after => Grown w after ∧ (failure = counterOverflow ∨
        Strays g roomId w.stored todo ∨ search (g.known w.stored) fuel seen todo = none)) := by
  induction fuel generalizing w found seen todo with
  | zero => exact ⟨.refl listed, Or.inr (Or.inr rfl)⟩
  | succ fuel ih =>
    cases todo with
    | nil => exact ⟨.refl listed, seen, rfl, stands⟩
    | cons eventId todo =>
      rw [walk, Action.wp_bind, Action.wp_get]
      by_cases isStored : eventId ∈ w.stored
      · have behind : g.known w.stored eventId = (g eventId).authEvents := if_pos isStored
        rw [World.getPdu, if_pos isStored]
        dsimp only
        by_cases sameRoom : (g eventId).roomId = roomId
        · rw [if_neg (not_not.mpr sameRoom)]
          apply Action.wp_seq (visitAll_spec (g eventId).authEvents listed stands)
          · intro held after visited
            obtain ⟨grown, standsNow, waiting⟩ := visited
            rw [waiting]
            rw [search, behind]
            have rest := @ih held.1 _ ((g eventId).authEvents.foldl visit (seen, todo)).2 after grown.listed standsNow
            rw [grown.stored] at rest
            apply Action.wp_mono rest
            · grind [Grown.trans]
            · grind [Grown.trans, strays_later]
          · grind
        · rw [if_pos sameRoom]
          exact ⟨.refl listed, Or.inr (Or.inl ⟨eventId, List.mem_cons_self, eventId, .refl, sameRoom⟩)⟩
      · have behind : g.known w.stored eventId = [] := if_neg isStored
        rw [World.getPdu, if_neg isStored]
        rw [search, behind]
        apply Action.wp_mono (@ih found seen todo w listed stands)
        · exact fun _ _ finished => finished
        · intro failure last failed
          refine ⟨failed.1, failed.2.imp_right (Or.imp_left ?_)⟩
          intro strays
          obtain ⟨start, mem, rest⟩ := strays
          exact ⟨start, List.mem_cons_of_mem _ mem, rest⟩

theorem search_enough (stored : List EventId) (eventId : EventId) :
    ∃ events, search (g.known stored) ((stored.flatMap g.authEvents).length + 2) [] [eventId] = some events := by
  apply search_finishes (stored.flatMap g.authEvents).toFinset
  · grind [List.mem_toFinset, Graph.known]
  · grind [List.toFinset_card_le]

theorem authChainForEvent_spec {w : World} (listed : Listed w.short) (eventId : EventId) :
    (authChainForEvent g roomId eventId).wp w (fun chain after => Grown w after ∧
        Stands after.short chain (TransGen (Step (g.known w.stored)) eventId)) (fun failure after => Grown w after ∧
        (failure = counterOverflow ∨ Strays g roomId w.stored [eventId])) := by
  obtain ⟨found, finished⟩ := @search_enough g w.stored eventId
  have start : Stands w.short [] (· ∈ ([] : List EventId)) :=
    (Stands.nil w.short).congr (fun _ => Iff.rfl) fun _ => by simp
  apply Action.wp_mono (walk_spec listed start)
  · intro chain after walked
    obtain ⟨grown, events, ran, stands⟩ := walked
    exact ⟨grown, stands.congr (fun _ => Iff.rfl) fun other => mem_search ran⟩
  · grind [World.turns]

end Walk

end Phantom.AuthChain
