import Phantom.Rooms.Layers
import Phantom.Rooms.State

namespace Phantom.Rooms

open Phantom.Lib Phantom.Matrix Function

/-- One entry for each state key, and no key that the counter did not give out. -/
structure Keyed (state : CompressedState) : Prop where
  named : ∀ event ∈ state, event.shortstatekey ≠ 0
  single : ∀ left ∈ state, ∀ right ∈ state, left.shortstatekey = right.shortstatekey → left = right

section Replacing

variable {s : CompressedState} {new : CompressedStateEvent}

theorem keyed_empty : Keyed ∅ :=
  ⟨fun _ mem => absurd mem (Finset.notMem_empty _), fun _ mem => absurd mem (Finset.notMem_empty _)⟩

theorem mem_replace {event : CompressedStateEvent} :
    event ∈ s.replace new ↔ event = new ∨ (event ∈ s ∧ event.shortstatekey ≠ new.shortstatekey) := by
  rw [CompressedState.replace, Finset.mem_insert, Finset.mem_filter]

theorem Keyed.replace (keyed : Keyed s) (named : new.shortstatekey ≠ 0) : Keyed (s.replace new) := by
  constructor
  · grind [mem_replace, Keyed.named]
  · grind [mem_replace, Keyed.single]

theorem Keyed.replace_same (keyed : Keyed s) (held : s.entryOf new.shortstatekey = some new) : s.replace new = s := by
  have present := (CompressedState.entryOf_some held).1
  ext event
  grind [mem_replace, Keyed.single]

theorem Keyed.leads_replace (keyed : Keyed s) (changed : some new ≠ s.entryOf new.shortstatekey) :
    Leads s {new} (s.entryOf new.shortstatekey).toFinset (s.replace new) := by
  cases found : s.entryOf new.shortstatekey with
  | none =>
    have others : ∀ event ∈ s, event.shortstatekey ≠ new.shortstatekey := by
      intro event mem
      exact CompressedState.entryOf_none found mem
    refine ⟨⟨?_, fun _ mem => absurd mem (Finset.notMem_empty _)⟩, ?_⟩
    · grind
    · ext event
      rw [mem_patched, mem_replace, Finset.mem_singleton]
      constructor
      · grind
      · rintro (rfl | ⟨present, _⟩)
        · exact ⟨Or.inr rfl, Finset.notMem_empty _⟩
        · exact ⟨Or.inl present, Finset.notMem_empty _⟩
  | some old =>
    obtain ⟨present, key⟩ := CompressedState.entryOf_some found
    have unique : ∀ event ∈ s, event.shortstatekey = new.shortstatekey → event = old := by
      grind [Keyed.single]
    rw [Option.toFinset_some]
    refine ⟨⟨?_, ?_⟩, ?_⟩
    · grind
    · grind
    · grind [mem_patched, mem_replace]

end Replacing

abbrev Ledger := ShortStateHash → Option CompressedState

/-- The rows hold the states of the ledger and nothing else. -/
structure Ledgered (rows : StateDiffRows) (cache : ShortStateHash → Option (List ShortStateInfo)) (count : UInt64)
    (keys : StateKeyPair → Option ShortStateKey) (ledger : Ledger) : Prop where
  stacked : ∀ shortstatehash state, ledger shortstatehash = some state → Stacked rows shortstatehash state
  recorded : ∀ shortstatehash, ledger shortstatehash = none → rows shortstatehash = none
  counted : ∀ shortstatehash, ledger shortstatehash ≠ none → shortstatehash.toNat ≤ count.toNat
  keyed : ∀ shortstatehash state, ledger shortstatehash = some state → Keyed state
  cached : CacheSound rows cache
  named : ∀ pair short, keys pair = some short → short ≠ 0

def baseState (ledger : Ledger) : Option ShortStateHash → CompressedState
  | some previous => (ledger previous).getD ∅
  | none => ∅

def Consistent (store : Store) (ledger : Ledger) : Prop :=
  Ledgered store.statediffs store.stateinfoCache store.count store.shortstatekeys ledger

/-- A hash that no row has yet and that is greater than all that have one. -/
structure Awaited (count : UInt64) (ledger : Ledger) (shortstatehash : ShortStateHash) : Prop where
  positive : 0 < shortstatehash.toNat
  counted : shortstatehash.toNat ≤ count.toNat
  later : ∀ other, ledger other ≠ none → other.toNat < shortstatehash.toNat

structure Under (store : Store) (previous : Option ShortStateHash) (frames : List ShortStateInfo) : Prop where
  layers : Layers store.statediffs frames
  top : topHash frames = previous

section Books

variable {store after : Store} {ledger : Ledger} {hash : ShortStateHash}
    {s statediffnew statediffremoved : CompressedState}
variable {frames below : List ShortStateInfo} {frame : ShortStateInfo} {diff : StateDiff} {diffToSibling : Nat}

theorem Awaited.fresh {count : UInt64} (awaited : Awaited count ledger hash) : ledger hash = none := by
  by_contra held
  exact Nat.lt_irrefl _ (awaited.later hash held)

section

variable (consistent : Consistent store ledger)
include consistent

theorem Consistent.drawn (drew : Drew store hash) :
    Consistent store.counted ledger ∧ Awaited store.counted.count ledger hash := by
  have n := drew.number
  have count : store.counted.count.toNat = hash.toNat := congrArg UInt64.toNat drew.next.symm
  have below : ∀ other, ledger other ≠ none → other.toNat < hash.toNat := by
    intro other held
    have counted := consistent.counted other held
    omega
  refine ⟨{ consistent with counted := ?_ }, by omega, by omega, below⟩
  intro other held
  have less := below other held
  omega

theorem Consistent.recached (recached : Recached store after) : Consistent after ledger := by
  obtain ⟨cache, sound, rfl⟩ := recached
  exact { consistent with cached := sound }

theorem Consistent.filed {short : ShortStateKey} (pair : StateKeyPair) (nonzero : short ≠ 0) :
    Consistent { store with shortstatekeys := update store.shortstatekeys pair (some short) } ledger := by
  refine { consistent with named := ?_ }
  intro other key held
  dsimp only at held
  by_cases same : other = pair
  · grind
  · rw [update_of_ne same] at held
    exact consistent.named other key held

theorem Consistent.held (layers : Layers store.statediffs (frame :: below)) :
    ledger frame.shortstatehash = some frame.fullState := by
  cases held : ledger frame.shortstatehash with
  | none =>
    cases layers with
    | push _ row _ _ _ =>
      obtain ⟨value, found, _⟩ := row
      rw [consistent.recorded _ held] at found
      cases found
  | some s =>
    obtain ⟨frames, others, top, full, _⟩ := consistent.stacked _ s held
    rw [others.unique layers top] at full
    exact congrArg some full.symm

theorem Consistent.baseState_eq (layers : Layers store.statediffs frames) :
    baseState ledger (topHash frames) = topState frames := by
  cases frames with
  | nil => rfl
  | cons frame below => exact congrArg (Option.getD · ∅) (consistent.held layers)

theorem Consistent.keyed_top (layers : Layers store.statediffs frames) : Keyed (topState frames) := by
  cases frames with
  | nil => exact keyed_empty
  | cons frame below => exact consistent.keyed _ _ (consistent.held layers)

end

theorem Awaited.above {count : UInt64} (awaited : Awaited count ledger hash) (consistent : Consistent store ledger)
    (layers : Layers store.statediffs frames) : topNumber frames < hash.toNat := by
  cases frames with
  | nil => exact awaited.positive
  | cons frame below =>
    apply awaited.later frame.shortstatehash
    rw [consistent.held layers]
    exact Option.some_ne_none _

section

variable (consistent : Consistent store ledger)
include consistent

theorem Consistent.save (awaited : Awaited store.count ledger hash) (layers : Layers store.statediffs frames)
    (leads : Leads (topState frames) statediffnew statediffremoved s) (keyed : Keyed s)
    (saved : statediffToSave statediffnew statediffremoved diffToSibling frames = .ok diff) :
    Consistent { store with statediffs := update store.statediffs hash (some diff.toRow) }
      (update ledger hash (some s)) := by
  have fresh := awaited.fresh
  have absent := consistent.recorded hash fresh
  have written := layers.save leads keyed.named absent (awaited.above consistent layers) saved
  have extended : ∀ other found, store.statediffs other = some found →
      update store.statediffs hash (some diff.toRow) other = some found := by
    grind
  have entries : ∀ other entered, update ledger hash (some s) other = some entered →
      (other = hash ∧ entered = s) ∨ ledger other = some entered := by
    grind
  constructor
  case stacked =>
    intro other entered held
    rcases entries other entered held with ⟨rfl, rfl⟩ | held
    · exact written
    · obtain ⟨frames, layers, rest⟩ := consistent.stacked other entered held
      exact ⟨frames, layers.mono extended, rest⟩
  case recorded =>
    grind [consistent.recorded]
  case counted =>
    intro other held
    by_cases same : other = hash
    · rw [same]
      exact awaited.counted
    · rw [update_of_ne same] at held
      exact consistent.counted other held
  case keyed =>
    grind [consistent.keyed]
  case cached =>
    intro other stack held
    obtain ⟨frames, shape, layers, top⟩ := consistent.cached other stack held
    exact ⟨frames, shape, layers.mono extended, top⟩
  case named => exact consistent.named

theorem loadPrevious_spec (prev : Option ShortStateHash) : (loadPrevious prev).wp store
      (fun stack after => Recached store after ∧ ∃ frames, stack = frames.reverse ∧ Under after prev frames)
      (fun failure after => (∃ error, failure = .err error) ∧ after = store ∧
        ∃ hash, prev = some hash ∧ ledger hash = none) := by
  cases prev with
  | none => exact ⟨.refl consistent.cached, [], rfl, .nil, rfl⟩
  | some prev =>
    cases held : ledger prev with
    | none =>
      refine Action.wp_mono (loadShortstatehashInfo_absent consistent.cached (consistent.recorded prev held))
        (fun _ _ impossible => impossible.elim) ?_
      grind
    | some s =>
      obtain ⟨frames, layers, top, _⟩ := consistent.stacked prev s held
      refine Action.wp_mono (loadShortstatehashInfo_layers consistent.cached layers top) ?_
        (fun _ _ impossible => impossible.elim)
      rintro stack after ⟨rfl, cache, sound, rfl⟩
      exact ⟨⟨cache, sound, rfl⟩, frames, rfl, layers, top⟩

theorem attemptPrevious_spec (prev : Option ShortStateHash) : (loadPrevious prev).attempt.wp store
      (fun stack after => Recached store after ∧
        ∃ frames, stack.getD [] = frames.reverse ∧ Layers after.statediffs frames) (fun _ _ => False) := by
  apply Action.wp_attempt
  refine Action.wp_mono (loadPrevious_spec consistent prev) ?_ ?_
  · rintro stack after ⟨recached, frames, rfl, under⟩
    exact ⟨recached, frames, rfl, under.layers⟩
  · rintro failure after ⟨error, rfl, _⟩
    exact ⟨error, .refl consistent.cached, [], rfl, .nil⟩

end

theorem diffFrom_leads (frames : List ShortStateInfo) (state : CompressedState) :
    Leads (topState frames) (diffFrom frames.reverse state).1 (diffFrom frames.reverse state).2 state := by
  rw [diffFrom, List.getLast?_reverse]
  cases frames with
  | nil => exact .of_empty state
  | cons frame below => exact .difference frame.fullState state

theorem saveStateFromDiff_spec (consistent : Consistent store ledger) (awaited : Awaited store.count ledger hash)
    (layers : Layers store.statediffs frames) (leads : Leads (topState frames) statediffnew statediffremoved s)
    (keyed : Keyed s) : (saveStateFromDiff hash statediffnew statediffremoved diffToSibling frames.reverse).wp store
      (fun _ after => Consistent after (update ledger hash (some s)) ∧
        ∃ value, after = { store with statediffs := update store.statediffs hash (some value) })
      (fun failure after => Overflow failure ∧ after = store) := by
  rw [saveStateFromDiff, List.reverse_reverse, Action.wp_bind]
  apply Action.wp_lift
  · intro diff saved
    exact ⟨consistent.save awaited layers leads keyed saved, diff.toRow, rfl⟩
  · exact fun failure failed => ⟨statediffToSave_failsOnly failure failed, rfl⟩

end Books

end Phantom.Rooms
