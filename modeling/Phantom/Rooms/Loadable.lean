import Phantom.Rooms.Faithful
import Phantom.Rooms.Faulty

namespace Phantom.Rooms.Faulty

open Phantom.Lib Phantom.Matrix Phantom.Lib.Action Function

/-- With no more entries than this in a state, none of the sums and products of a save overflows. -/
def maxEntries : Nat := 2 ^ 30

/-- Every hash on record has its state, except for one whose row is still to be written, and so has every
    hash that a room points at or that was handed out. -/
structure Backed (issued : List ShortStateHash) (pending : Option ShortStateHash)
    (hashes : Digest → Option ShortStateHash) (rooms : RoomId → Option ShortStateHash) (ledger : Ledger) : Prop where
  registered : ∀ digest shortstatehash, hashes digest = some shortstatehash →
    ledger shortstatehash ≠ none ∨ pending = some shortstatehash
  pointed : ∀ roomId shortstatehash, rooms roomId = some shortstatehash → ledger shortstatehash ≠ none
  known : ∀ shortstatehash ∈ issued, ledger shortstatehash ≠ none
  sized : ∀ shortstatehash state, ledger shortstatehash = some state → state.card ≤ maxEntries

variable (issued : List ShortStateHash)

def Loadable (pending : Option ShortStateHash) (ledger : Ledger) (store : Store) : Prop :=
  Consistent store ledger ∧ Backed issued pending store.shortstatehashes store.roomShortstatehashes ledger

def Sound (store : Store) : Prop := ∃ ledger, Loadable issued none ledger store

def Left (_ : Failure Error) (after : Flaky Store) : Prop := Sound issued after.store

/-- Nothing was saved since the call began. -/
def Beside (ledger : Ledger) (store after : Store) : Prop :=
  Loadable issued none ledger after ∧ after.statediffs = store.statediffs ∧
    after.roomShortstatehashes = store.roomShortstatehashes

/-- The hash has its number, and may be on record, without a row so far. -/
def Registered (ledger : Ledger) (shortstatehash : ShortStateHash)
    (store : Store) : Prop :=
  Loadable issued (some shortstatehash) ledger store ∧ Awaited store.count ledger shortstatehash

section Numbers

variable {faults : Faults Operation} {s : Flaky Store} {issued : List ShortStateHash} {ledger : Ledger}
variable {pending : Option ShortStateHash} {base store after : Store} {short : ShortId} {hash : ShortStateHash}

theorem Loadable.sound_cons (loadable : Loadable issued none ledger store) (held : ledger hash ≠ none) :
    Sound (hash :: issued) store := by
  refine ⟨ledger, loadable.1, { loadable.2 with known := ?_ }⟩
  grind [loadable.2.known]

theorem Loadable.recached (loadable : Loadable issued pending ledger store) (recached : Recached store after) :
    Loadable issued pending ledger after := by
  have consistent := loadable.1.recached recached
  obtain ⟨cache, _, rfl⟩ := recached
  exact ⟨consistent, loadable.2⟩

theorem Beside.drawn (beside : Beside issued ledger base store) (drew : Drew store short) :
    Beside issued ledger base store.counted := ⟨⟨(beside.1.1.drawn drew).1, beside.1.2⟩, beside.2⟩

theorem Beside.recached (beside : Beside issued ledger base store) (recached : Recached store after) :
    Beside issued ledger base after := by
  have loadable := beside.1.recached recached
  obtain ⟨cache, _, rfl⟩ := recached
  exact ⟨loadable, beside.2⟩

theorem Registered.of_drew (loadable : Loadable issued none ledger store) (drew : Drew store hash) :
    Registered issued ledger hash store.counted := by
  obtain ⟨consistent, awaited⟩ := loadable.1.drawn drew
  refine ⟨⟨consistent, { loadable.2 with registered := ?_ }⟩, awaited⟩
  exact fun digest other held => Or.inl ((loadable.2.registered digest other held).resolve_right nofun)

theorem put_spec {Holds : Store → Prop} {kind : Operation} {change : Store → Store} (before : Holds s.store)
    (after : Holds (change s.store)) :
    (put faults kind change).wp s (fun _ after => Holds after.store) (fun _ _ => False) :=
  wp_seq (Flaky.wp_put before after) (fun _ _ holds => holds) fun _ _ impossible => impossible

theorem nextCount_spec (loadable : Loadable issued none ledger s.store) :
    (nextCount faults).wp s (fun short after => Drew s.store short ∧ after.store = s.store.counted) (Left issued) := by
  apply wp_seq (Flaky.wp_within (Rooms.nextCount_spec s.store))
  · rintro short counted ⟨drew, same⟩
    have sound : Sound issued counted.store := by
      rw [same]
      exact ⟨ledger, (loadable.1.drawn drew).1, loadable.2⟩
    rw [wp_bind]
    unfold Action.wp Flaky.write Flaky.operate
    cases faults counted.turn .putCount with
    | done => exact ⟨drew, same⟩
    | refused | unflushed => exact sound
  · rintro failure after ⟨_, same⟩
    exact ⟨ledger, same ▸ loadable⟩

theorem getOrCreateShort_spec {kind : Operation} {recorded : Store → Option ShortId}
    {record : ShortId → FaultyAction Unit} (Recorded : ShortId → Store → Prop)
    (loadable : Loadable issued none ledger s.store)
    (records : ∀ short counted, Drew s.store short → counted.store = s.store.counted →
      (record short).wp counted (fun _ after => Recorded short after.store) fun _ _ => False) :
    (getOrCreateShort faults kind recorded record).wp s (fun (short, existed) after =>
        (existed = true ∧ recorded s.store = some short ∧ after.store = s.store) ∨
        (existed = false ∧ Drew s.store short ∧ Recorded short after.store)) (Left issued) := by
  apply wp_sure (Flaky.wp_lookup recorded)
  rintro found looked ⟨same, held⟩
  cases found with
  | some short => exact Or.inl ⟨rfl, held short rfl, same⟩
  | none =>
    rw [← same] at loadable records ⊢
    have counting := @nextCount_spec faults looked issued ledger loadable
    have expected : (expectOk "the counter is available" (nextCount faults)).wp looked
        (fun short after => Drew looked.store short ∧ after.store = looked.store.counted) (Left issued) := by
      grind [wp, expectOk, Left]
    apply wp_then expected
    rintro short counted ⟨drew, stored⟩
    apply wp_sure (records short counted drew stored)
    intro _ after made
    exact Or.inr ⟨rfl, drew, made⟩

theorem getOrCreateShorteventid_spec (beside : Beside issued ledger base s.store) (eventId : EventId) :
    (getOrCreateShorteventid faults eventId).wp s
      (fun _ after => Beside issued ledger base after.store) (Left issued) := by
  apply wp_then (getOrCreateShort_spec (fun _ => Beside issued ledger base) beside.1 _)
  · grind [wp_pure]
  · intro short counted drew same
    have drawn : Beside issued ledger base counted.store := same ▸ beside.drawn drew
    apply wp_sure (@put_spec _ _ (Beside issued ledger base) _ _ drawn drawn)
    exact fun _ _ beside => @put_spec _ _ (Beside issued ledger base) _ _ beside beside

theorem getOrCreateShortstatekey_spec (beside : Beside issued ledger base s.store) (eventType : EventType)
    (stateKey : String) : (getOrCreateShortstatekey faults eventType stateKey).wp s
      (fun short after => short ≠ 0 ∧ Beside issued ledger base after.store) (Left issued) := by
  apply wp_then (getOrCreateShort_spec (fun _ => Beside issued ledger base) beside.1 _)
  · rintro ⟨short, existed⟩ after (⟨_, found, same⟩ | ⟨_, drew, beside⟩)
    · exact ⟨beside.1.1.named _ _ found, same ▸ beside⟩
    · exact ⟨drew.ne_zero, beside⟩
  · intro short counted drew same
    have drawn : Beside issued ledger base counted.store := same ▸ beside.drawn drew
    apply wp_sure (@put_spec _ _ (Beside issued ledger base) _ _ drawn
      ⟨⟨drawn.1.1.filed _ drew.ne_zero, drawn.1.2⟩, drawn.2⟩)
    exact fun _ _ beside => @put_spec _ _ (Beside issued ledger base) _ _ beside beside

theorem getOrCreateShortstatehash_spec (loadable : Loadable issued none ledger s.store) (stateHash : Digest) :
    (getOrCreateShortstatehash faults stateHash).wp s (fun (hash, existed) after =>
        (existed = true ∧ ledger hash ≠ none ∧ after.store = s.store) ∨
        (existed = false ∧ Registered issued ledger hash after.store)) (Left issued) := by
  refine wp_mono (getOrCreateShort_spec (Registered issued ledger) loadable ?_) ?_ fun _ _ left => left
  · intro short counted drew same
    have drawn := Registered.of_drew loadable drew
    rw [← same] at drawn
    refine @put_spec _ _ (Registered issued ledger short) _ _ drawn ⟨⟨drawn.1.1, ?_⟩, drawn.2⟩
    exact { drawn.1.2 with registered := by grind [drawn.1.2.registered] }
  · rintro ⟨hash, existed⟩ after (⟨existed, found, same⟩ | ⟨existed, _, registered⟩)
    · exact Or.inl ⟨existed, (loadable.2.registered _ _ found).resolve_right nofun, same⟩
    · exact Or.inr ⟨existed, registered⟩

end Numbers

section Loads

variable {faults : Faults Operation} {s : Flaky Store} {issued : List ShortStateHash} {ledger : Ledger}
variable {pending : Option ShortStateHash} {hash : ShortStateHash} {frames : List ShortStateInfo}

variable {prev : Option ShortStateHash}

section

variable (loadable : Loadable issued pending ledger s.store) (pointed : ∀ hash, prev = some hash → ledger hash ≠ none)
include loadable pointed

theorem loadPrevious_spec : (loadPrevious faults prev).wp s (fun stack after => Recached s.store after.store ∧
        ∃ frames, stack = frames.reverse ∧ Under after.store prev frames)
      (fun failure after => (∃ error, failure = .err error) ∧ Recached s.store after.store ∧ Unreadable faults) := by
  cases prev with
  | none => exact ⟨.refl loadable.1.cached, [], rfl, .nil, rfl⟩
  | some prev =>
    obtain ⟨full, held⟩ := Option.ne_none_iff_exists'.mp (pointed prev rfl)
    obtain ⟨frames, layers, top, _⟩ := loadable.1.stacked prev full held
    apply wp_mono (loadWithin_layers loadable.1.cached layers top (layers.length_le_hash top)) _
      (fun _ _ failed => failed)
    rintro stack after ⟨same, recached⟩
    exact ⟨recached, frames, same, recached.statediffs ▸ layers, top⟩

theorem loadOrEmpty_spec : (loadPrevious faults prev).attempt.wp s (fun stack after => Recached s.store after.store ∧
        ∃ frames, stack.getD [] = frames.reverse ∧ Layers after.store.statediffs frames) (fun _ _ => False) := by
  apply wp_attempt
  apply wp_mono (loadPrevious_spec loadable pointed)
  · grind [Under.layers]
  · rintro failure after ⟨error, recached, _⟩
    exact ⟨error, recached, [], rfl, .nil⟩

end

end Loads

section Sizes

variable {issued : List ShortStateHash} {pending : Option ShortStateHash} {store : Store} {ledger : Ledger}
variable {rows : StateDiffRows} {frames : List ShortStateInfo} {diffToSibling : Nat}
variable {statediffnew statediffremoved saved : CompressedState}

theorem checked_ok {n : Nat} (small : n < 2 ^ 64) : checked n = .ok n := if_pos small

theorem card_diff_le {base added removed : CompressedState} (leads : Leads base added removed saved)
    (below : base.card ≤ maxEntries) (above : saved.card ≤ maxEntries) :
    added.card + removed.card ≤ 2 * maxEntries := by
  have more := Finset.card_le_card leads.added_subset
  have less : removed.card ≤ base.card := Finset.card_le_card leads.present
  omega

theorem card_topState_le (small : ∀ frame ∈ frames, frame.fullState.card ≤ maxEntries) :
    (topState frames).card ≤ maxEntries := by
  cases frames with
  | nil => exact Nat.zero_le _
  | cons frame below => exact small frame List.mem_cons_self

theorem statediffToSave_ok (layers : Layers rows frames) (small : ∀ frame ∈ frames, frame.fullState.card ≤ maxEntries)
    (leads : Leads (topState frames) statediffnew statediffremoved saved)
    (target : saved.card ≤ maxEntries) (sibling : diffToSibling ≤ 2 * maxEntries) :
    ∃ diff, statediffToSave statediffnew statediffremoved diffToSibling frames = .ok diff := by
  have entries : maxEntries = 2 ^ 30 := rfl
  induction layers generalizing statediffnew statediffremoved diffToSibling with
  | nil =>
    have sum := card_diff_le leads (card_topState_le small) target
    refine ⟨⟨none, statediffnew, statediffremoved⟩, ?_⟩
    rw [statediffToSave, checked_ok (by omega)]
    rfl
  | @push parent below inner row later parentFits full ih =>
    have sum := card_diff_le leads (card_topState_le small) target
    have lower : ∀ frame ∈ below, frame.fullState.card ≤ maxEntries :=
      fun frame mem => small frame (List.mem_cons_of_mem parent mem)
    have merged : ∃ diff, statediffToSave (mergeIntoParent parent statediffnew statediffremoved).1
        (mergeIntoParent parent statediffnew statediffremoved).2
        (statediffnew.card + statediffremoved.card) below = .ok diff := by
      rw [mergeIntoParent_eq]
      rw [topState, full] at leads
      exact ih lower (parentFits.merge leads) sum
    have parentSum : parent.added.card + parent.removed.card ≤ 2 * maxEntries :=
      card_diff_le ⟨parentFits, full.symm⟩ (card_topState_le lower) (small parent List.mem_cons_self)
    have squared : (statediffnew.card + statediffremoved.card) * (statediffnew.card + statediffremoved.card) ≤
        2 * maxEntries * (2 * maxEntries) := Nat.mul_le_mul sum sum
    have doubled : 2 * diffToSibling ≤ 2 * (2 * maxEntries) := Nat.mul_le_mul_left 2 sibling
    have bounded : 2 * diffToSibling * (parent.added.card + parent.removed.card) ≤
        2 * (2 * maxEntries) * (2 * maxEntries) := Nat.mul_le_mul doubled parentSum
    rw [entries] at *
    rw [statediffToSave, checked_ok (by omega)]
    simp only [Outcome.ok_bind]
    split
    · exact merged
    · rw [checked_ok (by omega : parent.added.card + parent.removed.card < 2 ^ 64), Outcome.ok_bind,
        checked_ok (Nat.lt_of_le_of_lt squared (by omega)), Outcome.ok_bind,
        checked_ok (by omega : 2 * diffToSibling < 2 ^ 64), Outcome.ok_bind,
        checked_ok (Nat.lt_of_le_of_lt bounded (by omega)), Outcome.ok_bind]
      split
      · exact merged
      · exact ⟨_, rfl⟩

theorem Loadable.frames_sized (loadable : Loadable issued pending ledger store)
    (layers : Layers store.statediffs frames) : ∀ frame ∈ frames, frame.fullState.card ≤ maxEntries := by
  intro frame mem
  obtain ⟨before, below, shape⟩ := List.append_of_mem mem
  have suffix : frame :: below <:+ frames := ⟨before, shape.symm⟩
  exact loadable.2.sized _ _ (loadable.1.held (layers.suffix suffix))

end Sizes

end Phantom.Rooms.Faulty
