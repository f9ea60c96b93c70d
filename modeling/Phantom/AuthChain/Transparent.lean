import Phantom.AuthChain.Cached
import Phantom.Lib.Runs

namespace Phantom.AuthChain

open Phantom.Lib Phantom.Lib.Search Phantom.Matrix Phantom.Rooms Relation

section Calls

variable {graph g : Graph} {roomId : RoomId} {world w : World}
variable {ids : List (ShortEventId × EventId)} {id : ShortEventId × EventId}

theorem mem_sortDedup {short : ShortEventId} {chain : List ShortEventId} :
    short ∈ sortDedup chain ↔ short ∈ chain := by
  rw [sortDedup, List.mem_dedup, List.mem_insertionSort]

/-- The call returns the chain of the events, and whatever it leaves in the caches is sound. -/
def Computes (graph : Graph) (roomId : RoomId) (events : List EventId) (call : ChainAction (List ShortEventId))
    (world : World) : Prop :=
  call.wp world (fun chain after => Advanced graph world after ∧ Stands after.short chain (graph.Behind events))
    (fun failure after => Advanced graph world after ∧ (failure = counterOverflow ∨ ¬ OneRoom graph roomId events))

theorem computes_nil (sound : Sound g w) : Computes g roomId [] (pure []) w := by
  refine ⟨.refl sound, (Stands.nil _).congr (fun _ => Iff.rfl) ?_⟩
  simp [Graph.Behind]

/-- The chain that is cached, or else the one that the call computes, which is cached. -/
def cachedOr (key : List ShortEventId) (finish : List ShortEventId → List ShortEventId)
    (call : ChainAction (List ShortEventId)) : ChainAction (List ShortEventId) := do
  match ← cachedAuthChain key with
  | some cached => return cached
  | none =>
    let chain ← call
    cacheAuthChain key (finish chain)
    return finish chain

variable {events : List EventId}

theorem cachedOr_computes {key : List ShortEventId} {finish : List ShortEventId → List ShortEventId}
    {call : ChainAction (List ShortEventId)} (sound : Sound g w) (named : key.map w.short.eventids = events.map some)
    (members : ∀ chain short, short ∈ finish chain ↔ short ∈ chain)
    (computes : ∀ s, Advanced g w s → Computes g roomId events call s) :
    Computes g roomId events (cachedOr key finish call) w := by
  apply Action.wp_sure (cachedAuthChain_spec key sound)
  rintro found middle ⟨advanced, valid⟩
  cases found with
  | some chain =>
    obtain ⟨others, same, stands⟩ := valid chain rfl
    rw [advanced.short.named named] at same
    rw [← List.map_injective_iff.mpr (Option.some_injective _) same] at stands
    exact ⟨advanced, stands⟩
  | none =>
    apply Action.wp_seq (computes middle advanced)
    · rintro chain s ⟨later, stands⟩
      have finished := stands.congr (members chain) fun _ => Iff.rfl
      have valid : Valid g s.short key (finish chain) := ⟨events, (advanced.trans later).short.named named, finished⟩
      apply Action.wp_sure (cacheAuthChain_spec later.sound valid)
      exact fun _ after cached => ⟨(advanced.trans later).trans cached, finished.extend cached.short⟩
    · exact fun _ _ failed => ⟨advanced.trans failed.1, failed.2⟩

theorem chainOf_computes (id : ShortEventId × EventId) (sound : Sound g w)
    (named : w.short.eventids id.1 = some id.2) (complete : Complete g w.stored [id.2]) :
    Computes g roomId [id.2] (chainOf g roomId id) w := by
  refine cachedOr_computes sound ?_ (fun _ _ => Iff.rfl) ?_
  · rw [List.map_singleton, List.map_singleton, named]
  · intro s advanced
    apply Action.wp_mono (authChainForEvent_spec advanced.sound.listed id.2)
    · rintro chain walked ⟨grown, stands⟩
      rw [advanced.stored] at stands
      exact ⟨advanced.sound.grown grown, stands.congr (fun _ => Iff.rfl) fun _ => transGen_known complete⟩
    · exact fun _ _ failed => ⟨advanced.sound.grown failed.1, failed.2.imp_right strays_not_oneRoom⟩

theorem concat_computes {ι : Type} (items : List ι) (events : ι → List EventId)
    (call : ι → ChainAction (List ShortEventId)) (sound : Sound g w)
    (computes : ∀ item ∈ items, ∀ s, Advanced g w s → Computes g roomId (events item) (call item) s) :
    Computes g roomId (items.flatMap events)
      (items.foldlM (fun chains item => do return chains ++ (← call item)) []) w := by
  apply Action.wp_foldlM fun (done : List ι) (chains : List ShortEventId) (after : World) =>
    Advanced g w after ∧ Stands after.short chains (g.Behind (done.flatMap events))
  · rintro done item chains s mem ⟨later, stands⟩
    apply Action.wp_seq (computes item mem s later)
    · rintro chain after ⟨last, exact⟩
      refine ⟨later.trans last, ((stands.extend last.short).append exact).congr (fun _ => Iff.rfl) ?_⟩
      grind [behind_append]
    · intro failure after failed
      refine ⟨later.trans failed.1, failed.2.imp_right ?_⟩
      intro mixed oneRoom
      exact mixed fun start inside => oneRoom start (List.mem_flatMap_of_mem mem inside)
  · exact @computes_nil g roomId w sound

theorem authChainForBucket_computes {bucket : List (ShortEventId × EventId)} (sound : Sound g w)
    (named : ∀ id ∈ bucket, w.short.eventids id.1 = some id.2)
    (complete : Complete g w.stored (bucket.map Prod.snd)) :
    Computes g roomId (bucket.map Prod.snd) (authChainForBucket g roomId bucket) w := by
  rw [authChainForBucket]
  split
  · next isEmpty =>
    have none : bucket = [] := List.map_eq_nil_iff.mp (List.isEmpty_iff.mp isEmpty)
    subst none
    exact computes_nil sound
  · refine cachedOr_computes sound ?_ (fun _ _ => mem_sortDedup) ?_
    · rw [List.map_map, List.map_map]
      exact List.map_congr_left named
    · intro middle advanced
      rw [List.map_eq_flatMap]
      apply concat_computes bucket (fun id => [id.2]) (chainOf g roomId) advanced.sound
      intro id mem s later
      have reached := advanced.trans later
      apply chainOf_computes id later.sound (reached.short.events _ _ (named id mem))
      rw [reached.stored]
      exact complete_of_mem complete (List.mem_map_of_mem mem)

theorem mem_bucketOf {index : ℕ} : id ∈ bucketOf ids index ↔ id ∈ ids ∧ id.1.toNat % numBuckets = index := by
  rw [bucketOf, List.mem_insertionSort, List.mem_dedup, List.mem_filter, decide_eq_true_eq]

theorem mem_buckets : id ∈ ((List.range numBuckets).map (bucketOf ids)).flatten ↔ id ∈ ids := by
  rw [List.mem_flatten]
  constructor
  · grind [mem_bucketOf]
  · intro mem
    have bounded : id.1.toNat % numBuckets < numBuckets := Nat.mod_lt _ (by decide)
    exact ⟨_, List.mem_map_of_mem (List.mem_range.mpr bounded), mem_bucketOf.mpr ⟨mem, rfl⟩⟩

theorem zip_named {names : ShortEventId → Option EventId} {shorts : List ShortEventId}
    (same : shorts.map names = events.map some) :
    (∀ id ∈ shorts.zip events, names id.1 = some id.2) ∧ (shorts.zip events).map Prod.snd = events := by
  induction shorts generalizing events with
  | nil =>
    cases events with
    | nil => exact ⟨nofun, rfl⟩
    | cons eventId events => cases same
  | cons short shorts ih =>
    cases events with
    | nil => cases same
    | cons eventId events =>
      grind

theorem getAuthChain_spec (startingEvents : List EventId) (sound : Sound g w)
    (complete : Complete g w.stored startingEvents) : (getAuthChain g roomId startingEvents).wp w
      (fun chain after => Advanced g w after ∧ chain.Nodup ∧ Stands after.short chain (g.Behind startingEvents))
      (fun failure after => Advanced g w after ∧
        (failure = counterOverflow ∨ ¬ OneRoom g roomId startingEvents)) := by
  have numbered : (onShorts (multiGetOrCreateShorteventid startingEvents)).wp w
      (fun shorts after => Advanced g w after ∧ shorts.map after.short.eventids = startingEvents.map some)
      (fun failure after => failure = counterOverflow ∧ Advanced g w after) := by
    apply Action.wp_zoom
    apply Action.wp_mono (multiGetOrCreateShorteventid_spec startingEvents sound.listed)
    · intro shorts after held
      obtain ⟨extended, listed, named⟩ := held
      exact ⟨sound.grown ⟨extended, listed, rfl⟩, named⟩
    · intro failure after failed
      obtain ⟨rfl, extended, listed⟩ := failed
      exact ⟨rfl, sound.grown ⟨extended, listed, rfl⟩⟩
  apply Action.wp_seq numbered _ fun _ _ failed => ⟨failed.2, Or.inl failed.1⟩
  rintro shorts middle ⟨advanced, same⟩
  obtain ⟨named, snds⟩ := zip_named same
  have events : ∀ eventId, eventId ∈ ((List.range numBuckets).map (bucketOf (shorts.zip startingEvents))).flatMap
      (List.map Prod.snd) ↔ eventId ∈ startingEvents := by
    intro eventId
    rw [List.flatMap_def, ← List.map_flatten, List.mem_map]
    simp only [mem_buckets]
    rw [← List.mem_map, snds]
  have each : ∀ bucket ∈ (List.range numBuckets).map (bucketOf (shorts.zip startingEvents)), ∀ s, Advanced g middle s →
      Computes g roomId (bucket.map Prod.snd) (authChainForBucket g roomId bucket) s := by
    intro bucket mem s later
    obtain ⟨index, _, rfl⟩ := List.mem_map.mp mem
    have inside : bucketOf (shorts.zip startingEvents) index ⊆ shorts.zip startingEvents :=
      fun id mem => (mem_bucketOf.mp mem).1
    apply authChainForBucket_computes later.sound
    · exact fun id mem => later.short.events _ _ (named id (inside mem))
    · rw [later.stored, advanced.stored]
      exact fun start mem => complete start (snds ▸ List.map_subset _ inside mem)
  apply Action.wp_seq (concat_computes _ (List.map Prod.snd) (authChainForBucket g roomId) advanced.sound each)
  · rintro chains after ⟨later, stands⟩
    refine ⟨advanced.trans later, List.nodup_dedup _, stands.congr (fun _ => mem_sortDedup) ?_⟩
    intro eventId
    simp only [Graph.Behind, events]
  · intro failure after failed
    refine ⟨advanced.trans failed.1, failed.2.imp_right ?_⟩
    intro mixed oneRoom
    exact mixed fun start inside => oneRoom start ((events start).mp inside)

end Calls

/-- The chain is, in short IDs and each once, the set of the events behind the starting events. -/
structure Exact (graph : Graph) (store : Rooms.Store) (startingEvents : List EventId) (chain : List ShortEventId) :
    Prop where
  once : chain.Nodup
  short : ∀ short ∈ chain, ∃ eventId, store.shorteventids eventId = some short
  event : ∀ eventId, (∃ short ∈ chain, store.eventids short = some eventId) ↔ graph.Behind startingEvents eventId

/-- A step, and whether each call finds its starting events and all that lies behind them in the store. -/
def CompleteStep (graph : Graph) (world : World) (label : Label) (after : World) : Prop :=
  after = step graph world label ∧
    ∀ roomId startingEvents, label = .call roomId startingEvents → Complete graph world.stored startingEvents

section Runs

variable {graph g : Graph} {world w after : World} {labels : List Label}

theorem exact_of_stands {store : Rooms.Store} {startingEvents : List EventId} {chain : List ShortEventId}
    (listed : Listed store) (once : chain.Nodup) (stands : Stands store chain (g.Behind startingEvents)) :
    Exact g store startingEvents chain where
  once := once
  short := by
    grind [Stands.exact]
  event := by
    intro eventId
    constructor
    · intro held
      obtain ⟨short, mem, row⟩ := held
      obtain ⟨other, behind, other_row⟩ := (stands.exact short).mp mem
      rw [listed.event other short other_row] at row
      cases row
      exact behind
    · intro behind
      obtain ⟨short, row⟩ := stands.total eventId behind
      exact ⟨short, (stands.exact short).mpr ⟨eventId, behind, row⟩, listed.event eventId short row⟩

theorem sound_init (g : Graph) (dropped : ℕ → List ShortEventId → Bool) : Sound g (.init dropped) :=
  ⟨⟨nofun, nofun⟩, nofun, nofun⟩

theorem sound_of_wp {α : Type} {call : ChainAction α} {Returned : α → World → Prop}
    {Failed : Failure ChainError → World → Prop} (spec : call.wp w Returned Failed)
    (returned : ∀ value after, Returned value after → Sound g after)
    (failed : ∀ failure after, Failed failure after → Sound g after) : Sound g (call w).2 := by
  grind [Action.wp]

theorem sound_step {label : Label} (sound : Sound g w) (stepped : CompleteStep g w label after) : Sound g after := by
  obtain ⟨rfl, complete⟩ := stepped
  cases label with
  | store eventId => exact ⟨sound.listed, sound.cached, sound.rows⟩
  | call roomId startingEvents =>
    apply sound_of_wp (getAuthChain_spec startingEvents sound (complete roomId startingEvents rfl))
    · exact fun _ _ reached => reached.1.sound
    · exact fun _ _ failed => failed.1.sound
  | shorten eventId =>
    apply sound_of_wp (onShorts_grown eventId sound.listed)
    · exact fun _ _ held => (sound.grown held.1).sound
    · exact fun _ _ failed => (sound.grown failed.2).sound
  | count =>
    have drawn : (onShorts nextCount).wp w (fun _ after => Grown w after) (fun _ after => Grown w after) := by
      apply Action.wp_zoom
      apply Action.wp_mono (nextCount_spec w.short)
      · rintro count after ⟨drew, rfl⟩
        exact ⟨⟨fun _ _ row => row, fun _ _ row => row⟩, sound.listed.counted drew, rfl⟩
      · rintro failure after ⟨_, rfl⟩
        exact .refl sound.listed
    apply sound_of_wp drawn
    · exact fun _ _ grown => (sound.grown grown).sound
    · exact fun _ _ grown => (sound.grown grown).sound
  | clearCache => exact ⟨sound.listed, nofun, sound.rows⟩

/-- Where no call before it missed an event, a call that misses none returns what is behind its starting events,
    whatever was cached, unless the counter is at its end. -/
theorem auth_chain_cache_transparent {dropped : ℕ → List ShortEventId → Bool}
    (run : Run (CompleteStep graph) (.init dropped) labels world)
    (roomId : RoomId) (startingEvents : List EventId) (complete : Complete graph world.stored startingEvents)
    (oneRoom : OneRoom graph roomId startingEvents) : (getAuthChain graph roomId startingEvents).wp world
      (fun chain after => Exact graph after.short startingEvents chain)
      (fun failure _ => failure = .panic "counter must not overflow u64") := by
  have sound : Sound graph world :=
    run.invariant (Sound graph) (fun _ _ _ held stepped => sound_step held stepped) (sound_init graph dropped)
  apply Action.wp_mono (getAuthChain_spec startingEvents sound complete)
  · intro chain after reached
    obtain ⟨advanced, once, stands⟩ := reached
    exact exact_of_stands advanced.sound.listed once stands
  · intro failure after failed
    exact failed.2.resolve_right (not_not.mpr oneRoom)

end Runs

namespace Sample

def first : EventId := ⟨"$first"⟩
def second : EventId := ⟨"$second"⟩
def third : EventId := ⟨"$third"⟩
def room : RoomId := ⟨"!room"⟩

def graph : Graph := fun eventId =>
  ⟨room, if eventId = first then [second] else if eventId = second then [third] else []⟩

theorem oneRoom : OneRoom graph room [first] := fun _ _ _ _ => rfl

theorem complete_all {stored : List EventId} (all : ∀ eventId ∈ [first, second, third], eventId ∈ stored) :
    Complete graph stored [first] := by
  intro start member eventId reached
  have inside : eventId ∈ [first, second, third] := by
    induction reached with
    | refl =>
      rw [List.mem_singleton.mp member]
      decide
    | tail _ step ih =>
      have closed : ∀ node ∈ [first, second, third], ∀ behind ∈ graph.authEvents node,
          behind ∈ [first, second, third] := by decide +kernel
      exact closed _ ih _ step
  exact all eventId inside

def keepAll : ℕ → List ShortEventId → Bool := fun _ _ => false

def early : List Label := [.store first, .call room [first], .store second, .store third]

def world : World := early.foldl (step graph) (.init keepAll)

theorem missing_event_cached :
    Run (fun before label after => after = step graph before label) (.init keepAll) early world ∧
      Complete graph world.stored [first] ∧ OneRoom graph room [first] ∧
      (getAuthChain graph room [first] world).1 = .ok [2] ∧
      ¬ Exact graph (getAuthChain graph room [first] world).2.short [first] [2] := by
  have named : second ∈ graph.authEvents first := by decide +kernel
  have namedNext : third ∈ graph.authEvents second := by decide +kernel
  have cached : (getAuthChain graph room [first] world).2.short.eventids 2 = some second := by decide +kernel
  refine ⟨?_, complete_all (by decide +kernel), oneRoom, by decide +kernel, ?_⟩
  · exact .cons rfl (.cons rfl (.cons rfl (.cons rfl (.nil _))))
  · intro exact
    have behind : graph.Behind [first] third := ⟨first, List.mem_cons_self, .tail (.single named) namedNext⟩
    obtain ⟨short, member, row⟩ := (exact.event third).mpr behind
    rw [List.mem_singleton.mp member, cached] at row
    exact absurd row (by decide +kernel)

def late : List Label := [.store first, .store second, .store third, .call room [first]]

theorem late_run : Run (CompleteStep graph) (.init keepAll) late (late.foldl (step graph) (.init keepAll)) := by
  refine .cons ⟨rfl, nofun⟩ (.cons ⟨rfl, nofun⟩ (.cons ⟨rfl, nofun⟩ (.cons ⟨rfl, ?_⟩ (.nil _))))
  intro roomId startingEvents called
  cases called
  exact complete_all (by decide +kernel)

theorem auth_chain_cache_transparent_late :
    (getAuthChain graph room [first]).wp (late.foldl (step graph) (.init keepAll))
      (fun chain after => Exact graph after.short [first] chain)
      (fun failure _ => failure = .panic "counter must not overflow u64") :=
  auth_chain_cache_transparent late_run room [first] (complete_all (by decide +kernel)) oneRoom

end Sample

end Phantom.AuthChain
