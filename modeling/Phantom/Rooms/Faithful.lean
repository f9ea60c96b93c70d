import Phantom.Lib.Runs
import Phantom.Rooms.Completeness

namespace Phantom.Rooms

open Phantom.Lib Phantom.Matrix Function

/-- The callers build the states they save from maps by state key. -/
structure StateToSave where
  events : CompressedState
  keyed : Keyed events

inductive Call where
  | saveState (roomId : RoomId) (state : StateToSave)
  | setEventState (eventId : EventId) (roomId : RoomId) (state : StateToSave)
  | appendToState (newPdu : Pdu)
  | setRoomState (roomId : RoomId) (shortstatehash : ShortStateHash)
  | deleteRoomShortstatehash (roomId : RoomId)
  | nextCount
  | evict (dropped : ShortStateHash → Bool)

structure World where
  store : Store
  ledger : Ledger
  answers : Answers
  appends : List (ShortStateHash × Option CompressedState)
  overflowed : Bool

def World.empty : World := ⟨.empty, fun _ => none, [], [], false⟩

instance : DecidablePred Overflow := fun failure =>
  match failure with
  | .err (.arithmetic _) => isTrue trivial
  | .err (.database _) => isFalse id
  | .panic message => inferInstanceAs (Decidable (message = "counter must not overflow u64"))
  | .unfinished => isFalse id

namespace World

def failed (world : World) (failure : Failure Error) (after : Store) : World :=
  { world with store := after, overflowed := world.overflowed || decide (Overflow failure) }

def answered (world : World) (state : CompressedState) (shortstatehash : ShortStateHash) (after : Store) :
    World :=
  { world with
    store := after
    ledger := ledgerAfter world.store after world.ledger shortstatehash (some state)
    answers := (shortstatehash, state) :: world.answers }

def appended (world : World) (newPdu : Pdu) (shortstatehash : ShortStateHash) (after : Store) : World :=
  let state := appendedState world.ledger world.store after newPdu
  { world with
    store := after
    ledger := ledgerAfter world.store after world.ledger shortstatehash state
    appends := (shortstatehash, state) :: world.appends }

def settle {α : Type} (world : World) (action : StoreAction α) (returned : α → Store → World) : World :=
  match action world.store with
  | (.ok value, after) => returned value after
  | (.error failure, after) => world.failed failure after

variable (sha256 : List UInt8 → Digest)

def after (world : World) : Call → World
  | .saveState roomId state =>
    world.settle (Rooms.saveState sha256 roomId state.events)
      (fun answer => world.answered state.events answer.shortstatehash)
  | .setEventState eventId roomId state =>
    world.settle (Rooms.setEventState sha256 eventId roomId state.events) (world.answered state.events)
  | .appendToState newPdu => world.settle (Rooms.appendToState newPdu) (world.appended newPdu)
  | .setRoomState roomId shortstatehash =>
    { world with store := Rooms.setRoomState roomId shortstatehash world.store }
  | .deleteRoomShortstatehash roomId =>
    { world with store := Rooms.deleteRoomShortstatehash roomId world.store }
  | .nextCount => world.settle Rooms.nextCount fun _ after => { world with store := after }
  | .evict dropped => { world with store := Rooms.evict dropped world.store }

def Issued (world : World) (shortstatehash : ShortStateHash) : Prop :=
  (∃ state, (shortstatehash, state) ∈ world.answers) ∨ world.ledger shortstatehash ≠ none

def Step (world : World) (call : Call) (next : World) : Prop :=
  (∀ roomId shortstatehash, call = .setRoomState roomId shortstatehash → world.Issued shortstatehash) ∧
    next = world.after sha256 call

def books (world : World) : Books :=
  ⟨sha256, world.overflowed = false, world.ledger, world.answers, world.appends⟩

def Inv (world : World) : Prop := Orderly (world.books sha256) world.store

end World

/-- Loading the hash gives a stack that ends in the state, whose frames load as its beginnings. -/
def Faithful (store : Store) (shortstatehash : ShortStateHash) (state : CompressedState) : Prop :=
  ∃ stack, (loadShortstatehashInfo shortstatehash store).1 = .ok stack ∧
    stack.getLast?.map ShortStateInfo.fullState = some state ∧ (∀ index frame, stack[index]? = some frame →
      (loadShortstatehashInfo frame.shortstatehash store).1 = .ok (stack.take (index + 1))) ∧ stack.length ≤ 4

/-- No two states that were saved have the same hash without being fed to it as the same bytes. -/
def CollisionFree (sha256 : List UInt8 → Digest) (answers : Answers) : Prop :=
  ∀ left ∈ answers, ∀ right ∈ answers,
    sha256 (delimited left.2) = sha256 (delimited right.2) → delimited left.2 = delimited right.2

section Runs

variable {sha256 : List UInt8 → Digest} {world w next : World} {calls : List Call}
variable {frames : List ShortStateInfo} {shortstatehash hash : ShortStateHash}

variable {store : Store}

theorem load_eq (sound : CacheSound store.statediffs store.stateinfoCache) (layers : Layers store.statediffs frames)
    (top : topHash frames = some hash) : (loadShortstatehashInfo hash store).1 = .ok frames.reverse := by
  have loaded := loadShortstatehashInfo_layers sound layers top
  grind [Action.wp]

theorem suffix_of_index {index : Nat} {frame : ShortStateInfo} (found : frames.reverse[index]? = some frame) :
    ∃ below, frame :: below <:+ frames ∧ frames.reverse.take (index + 1) = (frame :: below).reverse := by
  induction frames with
  | nil => cases found
  | cons first rest ih =>
    rw [List.reverse_cons] at found ⊢
    by_cases inside : index < rest.reverse.length
    · rw [List.getElem?_append_left inside] at found
      obtain ⟨below, suffix, beginning⟩ := ih found
      refine ⟨below, suffix.trans (List.suffix_cons first rest), ?_⟩
      rw [List.take_append_of_le_length (by omega), beginning]
    · have bound := (List.getElem?_eq_some_iff.mp found).1
      rw [List.length_append, List.length_singleton] at bound
      have last : index = rest.reverse.length := by omega
      rw [last, List.getElem?_concat_length] at found
      cases found
      refine ⟨rest, List.suffix_refl _, ?_⟩
      rw [last, List.reverse_cons]
      exact List.take_of_length_le (by rw [List.length_append, List.length_singleton])

theorem Consistent.faithful {ledger : Ledger} {s : CompressedState} (consistent : Consistent store ledger)
    (held : ledger hash = some s) : Faithful store hash s := by
  obtain ⟨frames, layers, top, full, short⟩ := consistent.stacked hash s held
  refine ⟨frames.reverse, load_eq consistent.cached layers top, ?_, ?_, ?_⟩
  · rw [List.getLast?_reverse]
    cases frames with
    | nil => cases top
    | cons frame below => exact congrArg some full
  · intro index frame found
    obtain ⟨below, suffix, beginning⟩ := suffix_of_index found
    rw [beginning]
    exact load_eq consistent.cached (layers.suffix suffix) rfl
  · rw [List.length_reverse]
    exact short

theorem inv_settle {α : Type} {action : StoreAction α} {returned : α → Store → World}
    (spec : action.wp w.store (fun value after => (returned value after).Inv sha256) (Refused (w.books sha256))) :
    (w.settle action returned).Inv sha256 := by
  unfold World.settle
  unfold Action.wp at spec
  cases ran : action w.store with
  | mk outcome after =>
    rw [ran] at spec
    cases outcome with
    | ok value => exact spec
    | error failure =>
      refine ⟨spec.1, fun calm => ?_⟩
      change (w.overflowed || decide (Overflow failure)) = false at calm
      rw [Bool.or_eq_false_iff, decide_eq_false_iff_not] at calm
      exact { spec.2 calm with }

theorem inv_empty : World.empty.Inv sha256 :=
  ⟨⟨nofun, fun _ _ => rfl, fun _ held => absurd rfl held, nofun, nofun, nofun⟩, fun _ => ⟨nofun, nofun, nofun, nofun⟩⟩

theorem Complete.held_of_issued {hashes : Digest → Option ShortStateHash} {rooms : RoomId → Option ShortStateHash}
    (complete : Complete (w.books sha256) hashes rooms) (issued : w.Issued hash) : w.ledger hash ≠ none := by
  rcases issued with ⟨s, answered⟩ | held
  · obtain ⟨saved, held, _⟩ := complete.hashed _ _ (complete.answered hash s answered)
    exact fun missing => Option.some_ne_none saved (held.symm.trans missing)
  · exact held

section

variable (inv : w.Inv sha256)
include inv

theorem inv_pointed {roomId : RoomId} {pointer : Option ShortStateHash}
    (issued : ∀ hash, pointer = some hash → w.Issued hash) : World.Inv sha256 { w with
      store := { w.store with roomShortstatehashes := update w.store.roomShortstatehashes roomId pointer } } := by
  refine ⟨inv.1, fun calm => ?_⟩
  have complete := inv.2 calm
  refine { complete with pointed := ?_ }
  intro other hash held
  dsimp only at held
  by_cases same : other = roomId
  · rw [same, update_self] at held
    exact complete.held_of_issued (issued hash held)
  · rw [update_of_ne same] at held
    exact complete.pointed other hash held

theorem inv_evict {dropped : ShortStateHash → Bool} : World.Inv sha256 { w with store := evict dropped w.store } := by
  refine ⟨{ inv.1 with cached := ?_ }, inv.2⟩
  intro hash stack held
  apply inv.1.cached hash stack
  grind [evict]

theorem inv_nextCount : (w.settle nextCount fun _ after => { w with store := after }).Inv sha256 := by
  apply inv_settle
  refine Action.wp_mono (nextCount_spec w.store) ?_ fun _ _ => inv.counter
  rintro short after ⟨drew, rfl⟩
  exact ⟨(inv.1.drawn drew).1, inv.2⟩

theorem inv_step {call : Call} (step : w.Step sha256 call next) : next.Inv sha256 := by
  obtain ⟨issued, rfl⟩ := step
  cases call with
  | saveState roomId s => exact inv_settle (saveState_spec inv s.keyed roomId)
  | setEventState eventId roomId s => exact inv_settle (setEventState_spec inv s.keyed eventId roomId)
  | appendToState newPdu => exact inv_settle (appendToState_spec inv newPdu)
  | setRoomState roomId hash =>
    apply inv_pointed inv
    rintro _ ⟨⟩
    exact issued roomId hash rfl
  | deleteRoomShortstatehash roomId => exact inv_pointed inv nofun
  | nextCount => exact inv_nextCount inv
  | evict dropped => exact inv_evict inv

end

/-- Every state that was saved with a row is loaded from its hash again. Where no number overflowed, so is
    the state of every append and, where the hash has no collisions, every other state that a save has
    returned a hash for. -/
theorem state_compression_faithful (run : Run (World.Step sha256) World.empty calls world) :
    (∀ shortstatehash state, world.ledger shortstatehash = some state → Faithful world.store shortstatehash state) ∧
    (world.overflowed = false → (∀ shortstatehash state, (shortstatehash, state) ∈ world.appends →
        ∃ saved, state = some saved ∧ Faithful world.store shortstatehash saved) ∧
      (CollisionFree sha256 world.answers → ∀ shortstatehash state, (shortstatehash, state) ∈ world.answers →
          Faithful world.store shortstatehash state)) := by
  obtain ⟨consistent, complete⟩ := run.invariant (World.Inv sha256)
    (fun _ _ _ inv step => inv_step inv step) inv_empty
  refine ⟨fun _ _ held => consistent.faithful held, fun calm => ?_⟩
  have complete := complete calm
  constructor
  · intro shortstatehash state appended
    obtain ⟨saved, same, held⟩ := complete.appended shortstatehash state appended
    exact ⟨saved, same, consistent.faithful held⟩
  intro collisionFree shortstatehash state answered
  have recorded := complete.answered shortstatehash state answered
  obtain ⟨saved, held, hash, savedAnswered⟩ := complete.hashed _ _ recorded
  have same : saved = state := delimited_injective (collisionFree _ savedAnswered _ answered hash)
  rw [← same]
  exact consistent.faithful held

end Runs

namespace Sample

def room : RoomId := ⟨"!room:here"⟩

theorem topic_keyed : Keyed {⟨5, 6⟩} := ⟨by decide, by decide⟩

def topic : StateToSave where
  events := {⟨5, 6⟩}
  keyed := topic_keyed

def joined : Pdu := ⟨⟨"$join"⟩, room, .roomMember, some "@alice:here"⟩

def left : Pdu := ⟨⟨"$leave"⟩, room, .roomMember, some "@alice:here"⟩

def saves : List Call :=
  [.saveState room topic, .setRoomState room 1, .appendToState joined, .setRoomState room 4,
    .evict fun _ => true, .appendToState left]

def worldAfter (calls : List Call) : World := calls.foldl (World.after id) .empty

theorem issued_of_held {w : World} {roomId : RoomId} {hash : ShortStateHash}
    (held : w.ledger hash ≠ none) (other : RoomId) (pointed : ShortStateHash)
    (same : Call.setRoomState roomId hash = .setRoomState other pointed) : w.Issued pointed := by
  cases same
  exact Or.inr held

theorem saves_run : Run (World.Step id) .empty saves (worldAfter saves) :=
  .cons ⟨nofun, rfl⟩ (.cons ⟨issued_of_held (by decide), rfl⟩ (.cons ⟨nofun, rfl⟩
    (.cons ⟨issued_of_held (by decide), rfl⟩ (.cons ⟨nofun, rfl⟩ (.cons ⟨nofun, rfl⟩ (.nil _))))))

theorem state_compression_faithful_left :
    (worldAfter saves).appends = [(6, some {⟨5, 6⟩, ⟨3, 5⟩}), (4, some {⟨5, 6⟩, ⟨3, 2⟩})] ∧
      (∃ saved, some {⟨5, 6⟩, ⟨3, 5⟩} = some saved ∧ Faithful (worldAfter saves).store 6 saved) ∧
      Faithful (worldAfter saves).store 1 {⟨5, 6⟩} := by
  have returned := (state_compression_faithful saves_run).2 (by decide)
  exact ⟨by decide, returned.1 6 _ (by decide), returned.2 (fun _ _ _ _ same => same) 1 _ (by decide)⟩

end Sample

end Phantom.Rooms
