import Phantom.AuthChain.Walk

namespace Phantom.AuthChain

open Phantom.Lib Phantom.Lib.Search Phantom.Matrix Phantom.Rooms Relation

section Chains

variable {graph g : Graph} {stored events : List EventId} {eventId other : EventId} {roomId : RoomId}

def Graph.Behind (graph : Graph) (events : List EventId) (eventId : EventId) : Prop :=
  ∃ start ∈ events, TransGen (Step graph.authEvents) start eventId

def Complete (graph : Graph) (stored events : List EventId) : Prop :=
  ∀ start ∈ events, ∀ eventId, ReflTransGen (Step graph.authEvents) start eventId → eventId ∈ stored

def OneRoom (graph : Graph) (roomId : RoomId) (events : List EventId) : Prop :=
  ∀ start ∈ events, ∀ eventId, ReflTransGen (Step graph.authEvents) start eventId → (graph eventId).roomId = roomId

theorem step_of_known (step : Step (g.known stored) eventId other) : Step g.authEvents eventId other := by
  grind [Step, Graph.known]

theorem transGen_known (complete : Complete g stored [eventId]) :
    TransGen (Step (g.known stored)) eventId other ↔ g.Behind [eventId] other := by
  have shown : Step (g.known stored) ≤ Step g.authEvents := fun _ _ => step_of_known
  have known : ∀ {node behind}, ReflTransGen (Step g.authEvents) eventId node →
      Step g.authEvents node behind → Step (g.known stored) node behind := by
    intro node behind reached step
    have isStored := complete eventId List.mem_cons_self node reached
    rw [Step, Graph.known, if_pos isStored]
    exact step
  simp only [Graph.Behind, List.mem_singleton, exists_eq_left]
  constructor
  · exact TransGen.mono shown _ _
  · intro behind
    induction behind with
    | single step => exact .single (known .refl step)
    | tail earlier step ih => exact .tail ih (known earlier.to_reflTransGen step)

theorem strays_not_oneRoom (strays : Strays g roomId stored [eventId]) : ¬ OneRoom g roomId [eventId] := by
  intro oneRoom
  obtain ⟨start, mem, other, reached, wrong⟩ := strays
  exact wrong (oneRoom start mem other (ReflTransGen.mono (fun _ _ => step_of_known) _ _ reached))

theorem behind_append {more : List EventId} :
    g.Behind (events ++ more) eventId ↔ g.Behind events eventId ∨ g.Behind more eventId := by
  grind [Graph.Behind]

theorem complete_of_mem (complete : Complete g stored events) (mem : eventId ∈ events) :
    Complete g stored [eventId] := by
  intro start same
  rw [List.mem_singleton.mp same]
  exact complete eventId mem

end Chains

/-- The short IDs of the key are those of events, and the chain is all that lies behind these. -/
def Valid (graph : Graph) (store : Rooms.Store) (key chain : List ShortEventId) : Prop :=
  ∃ events : List EventId, key.map store.eventids = events.map some ∧ Stands store chain (graph.Behind events)

structure Sound (graph : Graph) (world : World) : Prop where
  listed : Listed world.short
  cached : ∀ key chain, world.authChainCache.held key = some chain → Valid graph world.short key chain
  rows : ∀ short bytes, world.shorteventidAuthchain short = some bytes →
    Valid graph world.short [short] (decodeChain bytes)

structure Advanced (graph : Graph) (world after : World) : Prop where
  sound : Sound graph after
  short : Extends world.short after.short
  stored : after.stored = world.stored

section Bytes

theorem decodeChain_cons (short : ShortEventId) (bytes : List UInt8) :
    decodeChain (toBeBytes short ++ bytes) = short :: decodeChain bytes := by
  have length := length_toBeBytes short
  have decoded := fromBeBytes_toBeBytes short
  match same : toBeBytes short, length with
  | [b₀, b₁, b₂, b₃, b₄, b₅, b₆, b₇], _ =>
    rw [same] at decoded
    simp only [List.cons_append, List.nil_append, decodeChain, decoded]

@[simp] theorem decodeChain_encodeChain (chain : List ShortEventId) : decodeChain (encodeChain chain) = chain := by
  induction chain with
  | nil => rfl
  | cons short chain ih =>
    grind [decodeChain_cons, encodeChain]

end Bytes

section Cache

variable {g : Graph} {w middle after : World} {key chain : List ShortEventId}

theorem Valid.extend {before store : Rooms.Store} (valid : Valid g before key chain)
    (extended : Extends before store) : Valid g store key chain := by
  obtain ⟨events, named, stands⟩ := valid
  exact ⟨events, extended.named named, stands.extend extended⟩

theorem Sound.grown (sound : Sound g w) (grown : Grown w after) : Advanced g w after where
  sound :=
    { listed := grown.listed
      cached := by
        intro key chain mem
        rw [grown.rest] at mem
        exact (sound.cached key chain mem).extend grown.short
      rows := by
        intro short bytes row
        rw [grown.rest] at row
        exact (sound.rows short bytes row).extend grown.short }
  short := grown.short
  stored := grown.stored

theorem Advanced.refl (sound : Sound g w) : Advanced g w w := ⟨sound, .refl _, rfl⟩

theorem Advanced.trans (first : Advanced g w middle) (second : Advanced g middle after) :
    Advanced g w after where
  sound := second.sound
  short := first.short.trans second.short
  stored := second.stored.trans first.stored

theorem Sound.insert (sound : Sound g w) (valid : Valid g w.short key chain) :
    Advanced g w { w with authChainCache := w.authChainCache.insert key chain } := by
  refine ⟨⟨sound.listed, ?_, sound.rows⟩, .refl _, rfl⟩
  intro other found looked
  rcases LruCache.held_insert looked with ⟨rfl, rfl⟩ | earlier
  · exact valid
  · exact sound.cached other found earlier

theorem Sound.store (sound : Sound g w) (valid : Valid g w.short key chain) :
    Advanced g w (storeAuthChain key chain w) := by
  unfold storeAuthChain
  split
  · next short =>
    refine ⟨⟨sound.listed, sound.cached, ?_⟩, .refl _, rfl⟩
    grind [decodeChain_encodeChain, Sound.rows]
  · exact .refl sound

theorem cachedAuthChain_spec (key : List ShortEventId) (sound : Sound g w) :
    (cachedAuthChain key).wp w
      (fun found after => Advanced g w after ∧ ∀ chain, found = some chain → Valid g after.short key chain)
      (fun _ _ => False) := by
  rw [cachedAuthChain, Action.wp_bind, Action.wp_get]
  split
  · next found => exact ⟨.refl sound, fun chain same => by cases same; exact sound.cached key _ found⟩
  · split
    · grind [Advanced.refl, Sound.rows, Action.wp_bind, Action.wp_modify, Action.wp_pure, Sound.insert]
    · exact ⟨.refl sound, by simp⟩

theorem cacheAuthChain_spec (sound : Sound g w) (valid : Valid g w.short key chain) :
    (cacheAuthChain key chain).wp w (fun _ after => Advanced g w after) (fun _ _ => False) := by
  have stored := sound.store valid
  exact stored.trans (stored.sound.insert (valid.extend stored.short))

end Cache

end Phantom.AuthChain
