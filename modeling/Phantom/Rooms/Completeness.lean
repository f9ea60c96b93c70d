import Phantom.Rooms.Ledger

namespace Phantom.Rooms

open Phantom.Lib Phantom.Matrix Function

abbrev Answers := List (ShortStateHash × CompressedState)

/-- The ledger after a call that returned the hash: the state is entered with the row. -/
def ledgerAfter (store after : Store) (ledger : Ledger) (shortstatehash : ShortStateHash)
    (state : Option CompressedState) : Ledger :=
  if store.statediffs shortstatehash = none ∧ after.statediffs shortstatehash ≠ none then
    Function.update ledger shortstatehash state
  else ledger

/-- What the calls so far have saved and returned. They are `calm` while no number has overflowed. -/
structure Books where
  sha256 : List UInt8 → Digest
  calm : Prop
  ledger : Ledger
  answers : Answers
  appends : List (ShortStateHash × Option CompressedState)

/-- Every hash on record, and every one a room points at, has its state in the ledger. -/
structure Complete (books : Books) (hashes : Digest → Option ShortStateHash)
    (rooms : RoomId → Option ShortStateHash) : Prop where
  hashed : ∀ stateHash shortstatehash, hashes stateHash = some shortstatehash →
    ∃ state, books.ledger shortstatehash = some state ∧ books.sha256 (delimited state) = stateHash ∧
      (shortstatehash, state) ∈ books.answers
  answered : ∀ shortstatehash state, (shortstatehash, state) ∈ books.answers →
    hashes (books.sha256 (delimited state)) = some shortstatehash
  pointed : ∀ roomId shortstatehash, rooms roomId = some shortstatehash → books.ledger shortstatehash ≠ none
  appended : ∀ shortstatehash state, (shortstatehash, state) ∈ books.appends →
    ∃ saved, state = some saved ∧ books.ledger shortstatehash = some saved

variable (books : Books)

def Orderly (store : Store) : Prop :=
  Consistent store books.ledger ∧ (books.calm → Complete books store.shortstatehashes store.roomShortstatehashes)

def Refused (failure : Failure Error) (after : Store) : Prop :=
  Orderly { books with calm := books.calm ∧ ¬ Overflow failure } after

/-- Nothing was saved since the call began. -/
def Beside (store after : Store) : Prop :=
  Orderly books after ∧ after.statediffs = store.statediffs ∧ after.roomShortstatehashes = store.roomShortstatehashes

/-- The state's hash is on record under a new number, without a row so far. -/
structure Recorded (books : Books) (state : CompressedState) (store : Store) (shortstatehash : ShortStateHash)
    (after : Store) : Prop where
  consistent : Consistent after books.ledger
  complete : books.calm → ∃ hashes, Complete books hashes after.roomShortstatehashes ∧
    hashes (books.sha256 (delimited state)) = none ∧
    after.shortstatehashes = update hashes (books.sha256 (delimited state)) (some shortstatehash)
  awaited : Awaited after.count books.ledger shortstatehash
  statediffs : after.statediffs = store.statediffs

def Answered (state : CompressedState) (store : Store) (shortstatehash : ShortStateHash)
    (after : Store) : Prop :=
  Orderly { books with
    ledger := ledgerAfter store after books.ledger shortstatehash (some state)
    answers := (shortstatehash, state) :: books.answers } after

section Calls

variable {books : Books} {base store after : Store} {ledger : Ledger} {hash : ShortStateHash}
variable {s : CompressedState} {target : Option CompressedState} {failure : Failure Error}
variable {frames : List ShortStateInfo} {newPdu : Pdu}

theorem ledgerAfter_same (same : after.statediffs = store.statediffs) :
    ledgerAfter store after ledger hash target = ledger := by
  grind [ledgerAfter]

theorem ledgerAfter_written {value : List UInt8} (absent : store.statediffs hash = none)
    (written : after.statediffs = update store.statediffs hash (some value)) :
    ledgerAfter store after ledger hash target = update ledger hash target := by
  rw [ledgerAfter, if_pos]
  refine ⟨absent, ?_⟩
  rw [written, update_self]
  exact Option.some_ne_none value

theorem Orderly.refused (orderly : Orderly books store) (failed : Overflow failure ∧ after = store) :
    Refused books failure after := by
  obtain ⟨overflow, rfl⟩ := failed
  exact ⟨orderly.1, fun calm => absurd overflow calm.2⟩

theorem Orderly.counter (orderly : Orderly books store) (failed : failure = counterOverflow ∧ after = store) :
    Refused books failure after := by
  obtain ⟨rfl, same⟩ := failed
  exact orderly.refused ⟨rfl, same⟩

theorem Beside.drawn (beside : Beside books base store) (drew : Drew store hash) :
    Beside books base store.counted := ⟨⟨(beside.1.1.drawn drew).1, beside.1.2⟩, beside.2⟩

theorem Beside.recached (beside : Beside books base store) (recached : Recached store after) :
    Beside books base after := by
  have consistent := beside.1.1.recached recached
  obtain ⟨cache, _, rfl⟩ := recached
  exact ⟨⟨consistent, beside.1.2⟩, beside.2⟩

theorem Recorded.recached (recorded : Recorded books s base hash store) (recached : Recached store after) :
    Recorded books s base hash after := by
  have consistent := recorded.consistent.recached recached
  obtain ⟨cache, _, rfl⟩ := recached
  exact { recorded with consistent }

section

variable (beside : Beside books base store)
include beside

theorem Answered.of_found (found : store.shortstatehashes (books.sha256 (delimited s)) = some hash) :
    Answered books s base hash store := by
  rw [Answered, ledgerAfter_same beside.2.1]
  refine ⟨beside.1.1, fun calm => ?_⟩
  have complete := beside.1.2 calm
  refine ⟨?_, ?_, complete.pointed, complete.appended⟩
  · grind [complete.hashed]
  · intro other saved mem
    rcases List.mem_cons.mp mem with same | mem
    · cases same
      exact found
    · exact complete.answered other saved mem

theorem getOrCreateShorteventid_spec (eventId : EventId) : (getOrCreateShorteventid eventId).wp store
      (fun short after => Beside books base after ∧ after.shorteventids eventId = some short ∧
        after.shortstatekeys = store.shortstatekeys) (Refused books) := by
  apply Action.wp_seq (getOrCreateShort_spec _ _ store) _ fun _ _ => beside.1.counter
  rintro ⟨short, existed⟩ after (⟨_, found, rfl⟩ | ⟨_, _, drew, rfl⟩)
  · exact ⟨beside, found, rfl⟩
  · exact ⟨beside.drawn drew, update_self _ _ _, rfl⟩

theorem getOrCreateShortstatekey_spec (eventType : EventType) (stateKey : String) :
    (getOrCreateShortstatekey eventType stateKey).wp store
      (fun short after => Beside books base after ∧ after.shortstatekeys (eventType, stateKey) = some short)
      (Refused books) := by
  apply Action.wp_seq (getOrCreateShort_spec _ _ store) _ fun _ _ => beside.1.counter
  rintro ⟨short, existed⟩ after (⟨_, found, rfl⟩ | ⟨_, _, drew, rfl⟩)
  · exact ⟨beside, found⟩
  · have drawn := beside.drawn drew
    exact ⟨⟨⟨drawn.1.1.filed _ drew.ne_zero, drawn.1.2⟩, drawn.2⟩, update_self _ _ _⟩

theorem getOrCreateShortstatehash_spec : (getOrCreateShortstatehash (books.sha256 (delimited s))).wp store
      (fun (hash, existed) after =>
        (existed = true ∧ store.shortstatehashes (books.sha256 (delimited s)) = some hash ∧ after = store) ∨
        (existed = false ∧ Recorded books s base hash after))
      (Refused books) := by
  refine Action.wp_mono (getOrCreateShort_spec _ _ store) ?_ fun _ _ => beside.1.counter
  rintro ⟨short, existed⟩ after (found | ⟨missed, missing, drew, rfl⟩)
  · exact Or.inl found
  · obtain ⟨consistent, awaited⟩ := beside.1.1.drawn drew
    exact Or.inr ⟨missed, consistent, fun calm => ⟨_, beside.1.2 calm, missing, rfl⟩, awaited, beside.2.1⟩

end

section Entering

variable {hashes : Digest → Option ShortStateHash} {rooms : RoomId → Option ShortStateHash}

theorem Complete.extend (complete : Complete books hashes rooms) (fresh : books.ledger hash = none) :
    Complete { books with ledger := update books.ledger hash (some s) } hashes rooms where
  hashed := by
    grind [complete.hashed]
  answered := complete.answered
  pointed := by
    grind [complete.pointed]
  appended := by
    grind [complete.appended]

theorem Complete.enter (complete : Complete books hashes rooms) (fresh : books.ledger hash = none)
    (missing : hashes (books.sha256 (delimited s)) = none) : Complete { books with
      ledger := update books.ledger hash (some s)
      answers := (hash, s) :: books.answers } (update hashes (books.sha256 (delimited s)) (some hash)) rooms where
  hashed := by
    grind [complete.hashed]
  answered other saved mem := by
    rcases List.mem_cons.mp mem with same | mem
    · cases same
      exact update_self _ _ _
    · have known := complete.answered other saved mem
      grind
  pointed := (complete.extend fresh).pointed
  appended := (complete.extend fresh).appended

end Entering

theorem saveDifference_spec {diffToSibling : Nat} (recorded : Recorded books s base hash store) (keyed : Keyed s)
    (layers : Layers store.statediffs frames) :
    (saveStateFromDiff hash (diffFrom frames.reverse s).1 (diffFrom frames.reverse s).2 diffToSibling
      frames.reverse).wp store (fun _ after => Answered books s base hash after) (Refused books) := by
  have fresh := recorded.awaited.fresh
  refine Action.wp_mono
    (saveStateFromDiff_spec recorded.consistent recorded.awaited layers (diffFrom_leads frames s) keyed) ?_ ?_
  · rintro _ after ⟨consistent, value, rfl⟩
    have absent := recorded.consistent.recorded hash fresh
    rw [recorded.statediffs] at absent
    rw [Answered, ledgerAfter_written absent (congrArg (update · hash (some value)) recorded.statediffs)]
    refine ⟨consistent, fun calm => ?_⟩
    obtain ⟨hashes, complete, missing, same⟩ := recorded.complete calm
    have entered := complete.enter fresh missing
    rw [← same] at entered
    exact entered
  · rintro failure after ⟨overflow, rfl⟩
    exact ⟨recorded.consistent, fun calm => absurd overflow calm.2⟩

theorem recordEventState_spec {shorteventid : ShortEventId} {recorded : Option ShortStateHash}
    (Holds : Store → Prop) (kept : ∀ rows, Holds { store with eventShortstatehashes := rows }) :
    (recordEventState shorteventid recorded).wp store (fun _ after => Holds after) (fun _ _ => False) := by
  cases recorded with
  | none => exact kept store.eventShortstatehashes
  | some recorded => exact kept _

theorem saveState_spec (orderly : Orderly books base) (keyed : Keyed s) (roomId : RoomId) :
    (saveState books.sha256 roomId s).wp base
      (fun answer after => Answered books s base answer.shortstatehash after) (Refused books) := by
  have beside : Beside books base base := ⟨orderly, rfl, rfl⟩
  apply Action.wp_then (getOrCreateShortstatehash_spec beside)
  rintro ⟨hash, existed⟩ hashed how
  dsimp only
  split
  · next pointed =>
    rcases how with ⟨_, found, rfl⟩ | ⟨_, recorded⟩
    · exact .of_found beside found
    · rw [Action.wp_pure, Answered, ledgerAfter_same recorded.statediffs]
      refine ⟨recorded.consistent, fun calm => ?_⟩
      exact absurd recorded.awaited.fresh ((orderly.2 calm).pointed roomId hash pointed.symm)
  · rcases how with ⟨rfl, found, rfl⟩ | ⟨rfl, recorded⟩
    · apply Action.wp_sure (attemptPrevious_spec beside.1.1 _)
      rintro stack loaded ⟨recached, _⟩
      refine .of_found (beside.recached recached) ?_
      obtain ⟨cache, _, rfl⟩ := recached
      exact found
    · apply Action.wp_sure (attemptPrevious_spec recorded.consistent _)
      rintro stack loaded ⟨recached, frames, shape, layers⟩
      rw [shape]
      apply Action.wp_then (saveDifference_spec (recorded.recached recached) keyed layers)
      exact fun _ _ answered => answered

theorem setEventState_spec (orderly : Orderly books base) (keyed : Keyed s) (eventId : EventId) (roomId : RoomId) :
    (setEventState books.sha256 eventId roomId s).wp base (Answered books s base) (Refused books) := by
  apply Action.wp_then (getOrCreateShorteventid_spec ⟨orderly, rfl, rfl⟩ eventId)
  rintro shorteventid first ⟨beside, _⟩
  apply Action.wp_then (getOrCreateShortstatehash_spec beside)
  rintro ⟨hash, existed⟩ hashed how
  have saved : (Action.unlessDone existed (do
      let statesParents ← loadPrevious (first.roomShortstatehashes roomId)
      saveStateFromDiff hash (diffFrom statesParents s).1 (diffFrom statesParents s).2
        1000000 statesParents)).wp hashed
      (fun _ after => Answered books s base hash after) (Refused books) := by
    rcases how with ⟨rfl, found, rfl⟩ | ⟨rfl, recorded⟩
    · exact .of_found beside found
    · apply Action.wp_seq (loadPrevious_spec recorded.consistent _)
      · rintro stack loaded ⟨recached, frames, rfl, under⟩
        exact saveDifference_spec (recorded.recached recached) keyed under.layers
      · rintro failure after ⟨_, rfl, hash, pointer, missing⟩
        exact ⟨recorded.consistent, fun calm =>
          absurd missing ((beside.1.2 calm.1).pointed roomId hash pointer)⟩
  apply Action.wp_then saved
  intro _ after answered
  exact Action.wp_sure (recordEventState_spec (Answered books s base hash) fun _ => answered)
    (fun _ _ answered => answered)

/-- The state that an append returns a hash for: the room's, in which a state event has its place. -/
def appendedState (ledger : Ledger) (store after : Store) (newPdu : Pdu) : Option CompressedState :=
  let state := baseState ledger (store.roomShortstatehashes newPdu.roomId)
  match newPdu.stateKey with
  | none => some state
  | some stateKey => do
    let shortstatekey ← after.shortstatekeys (newPdu.kind, stateKey)
    let shorteventid ← after.shorteventids newPdu.eventId
    return state.replace (compressStateEvent shortstatekey shorteventid)

def Appended (books : Books) (newPdu : Pdu) (store : Store) (shortstatehash : ShortStateHash) (after : Store) : Prop :=
  Orderly { books with
    ledger := ledgerAfter store after books.ledger shortstatehash (appendedState books.ledger store after newPdu)
    appends := (shortstatehash, appendedState books.ledger store after newPdu) :: books.appends } after

theorem Complete.append {hashes : Digest → Option ShortStateHash} {rooms : RoomId → Option ShortStateHash}
    (complete : Complete books hashes rooms) (held : books.ledger hash = some s) :
    Complete { books with appends := (hash, some s) :: books.appends } hashes rooms := by
  refine { complete with appended := ?_ }
  intro other state mem
  rcases List.mem_cons.mp mem with same | mem
  · cases same
    exact ⟨s, rfl, held⟩
  · exact complete.appended other state mem

/-- The room's state as it is, for an event that leaves it so. -/
theorem returnPrevious_spec {error : Error} (beside : Beside books base store)
    (same : ∀ saved, baseState books.ledger (base.roomShortstatehashes newPdu.roomId) = saved →
      appendedState books.ledger base store newPdu = some saved) :
    (Action.lift (.ofOption error (base.roomShortstatehashes newPdu.roomId)) : StoreAction ShortStateHash).wp store
      (Appended books newPdu base) (Refused books) := by
  apply Action.wp_lift
  · intro hash returned
    have pointer := Outcome.ofOption_eq_ok.mp returned
    rw [Appended, ledgerAfter_same beside.2.1, same _ rfl, pointer]
    refine ⟨beside.1.1, fun calm => ?_⟩
    have complete := beside.1.2 calm
    rw [← beside.2.2] at pointer
    obtain ⟨saved, held⟩ := Option.ne_none_iff_exists'.mp (complete.pointed _ hash pointer)
    rw [baseState, held]
    exact complete.append held
  · exact fun _ _ => ⟨beside.1.1, fun calm => { beside.1.2 calm.1 with }⟩

section

variable {stateKey : String} {new : CompressedStateEvent} (beside : Beside books base store)
  (stateful : newPdu.stateKey = some stateKey)
  (key : store.shortstatekeys (newPdu.kind, stateKey) = some new.shortstatekey)
  (event : store.shorteventids newPdu.eventId = some new.shorteventid)
  (under : Under base (base.roomShortstatehashes newPdu.roomId) frames)

include beside under in
theorem Beside.under_layers : Layers store.statediffs frames ∧
    baseState books.ledger (base.roomShortstatehashes newPdu.roomId) = topState frames := by
  have layers : Layers store.statediffs frames := by
    rw [beside.2.1]
    exact under.layers
  rw [← under.top]
  exact ⟨layers, beside.1.1.baseState_eq layers⟩

include stateful key event in
theorem appendedState_eq : appendedState books.ledger base store newPdu =
    some ((baseState books.ledger (base.roomShortstatehashes newPdu.roomId)).replace new) := by
  simp only [appendedState, stateful, key, event, Option.bind_eq_bind, Option.bind_some, compressStateEvent,
    Option.pure_def]

include beside stateful key event under in
theorem appendedState_unchanged (unchanged : some new = (topState frames).entryOf new.shortstatekey)
    (saved : CompressedState) (state : baseState books.ledger (base.roomShortstatehashes newPdu.roomId) = saved) :
    appendedState books.ledger base store newPdu = some saved := by
  obtain ⟨layers, top⟩ := beside.under_layers under
  rw [appendedState_eq stateful key event, ← state, top, (beside.1.1.keyed_top layers).replace_same unchanged.symm]

include beside stateful key event under in
theorem saveAppended_spec (changed : some new ≠ (topState frames).entryOf new.shortstatekey) : (do
      let hash ← nextCount
      saveStateFromDiff hash {new} ((topState frames).entryOf new.shortstatekey).toFinset 2 frames.reverse
      return hash : StoreAction ShortStateHash).wp store (Appended books newPdu base) (Refused books) := by
  have consistent := beside.1.1
  obtain ⟨layers, top⟩ := beside.under_layers under
  have keyed := consistent.keyed_top layers
  apply Action.wp_seq (nextCount_spec store) _ fun _ _ => beside.1.counter
  rintro hash _ ⟨drew, rfl⟩
  obtain ⟨drawn, awaited⟩ := consistent.drawn drew
  apply Action.wp_seq (saveStateFromDiff_spec drawn awaited layers (keyed.leads_replace changed)
    (keyed.replace (consistent.named _ _ key))) _ fun _ _ => (beside.drawn drew).1.refused
  rintro _ after ⟨entered, value, rfl⟩
  have fresh := awaited.fresh
  have absent := consistent.recorded hash fresh
  have written : update store.counted.statediffs hash (some value) = update base.statediffs hash (some value) := by
    rw [← beside.2.1]
    rfl
  have appended : appendedState books.ledger base { store.counted with
      statediffs := update store.counted.statediffs hash (some value) } newPdu =
      some ((topState frames).replace new) := by
    rw [← top]
    exact appendedState_eq stateful key event
  rw [beside.2.1] at absent
  rw [Action.wp_pure, Appended, ledgerAfter_written absent written, appended]
  exact ⟨entered, fun calm => ((beside.1.2 calm).extend fresh).append (update_self _ _ _)⟩

end

theorem entryOf_last (frames : List ShortStateInfo) (shortstatekey : ShortStateKey) :
    frames.reverse.getLast?.bind (fun info => info.fullState.entryOf shortstatekey) =
      (topState frames).entryOf shortstatekey := by
  rw [List.getLast?_reverse]
  cases frames with
  | cons frame below => rfl
  | nil =>
    cases found : (topState []).entryOf shortstatekey with
    | none => rfl
    | some event => exact absurd (CompressedState.entryOf_some found).1 (Finset.notMem_empty event)

theorem appendToState_spec (orderly : Orderly books base) (newPdu : Pdu) :
    (appendToState newPdu).wp base (Appended books newPdu base) (Refused books) := by
  apply Action.wp_then (getOrCreateShorteventid_spec ⟨orderly, rfl, rfl⟩ newPdu.eventId)
  rintro shorteventid first ⟨beside, _⟩
  rw [Action.wp_bind, Action.wp_get, beside.2.2]
  apply Action.wp_sure (recordEventState_spec (Beside books base) fun _ => beside)
  intro _ noted beside
  cases stateful : newPdu.stateKey with
  | none => exact returnPrevious_spec beside fun saved base => by rw [appendedState, stateful, base]
  | some stateKey =>
    dsimp only
    apply Action.wp_seq (loadPrevious_spec beside.1.1 _)
    · rintro stack loaded ⟨recached, frames, rfl, under⟩
      have beside := beside.recached recached
      have under : Under base _ frames := ⟨beside.2.1 ▸ under.layers, under.top⟩
      apply Action.wp_then (getOrCreateShortstatekey_spec beside newPdu.kind stateKey)
      rintro shortstatekey keyed ⟨beside, key⟩
      apply Action.wp_then (getOrCreateShorteventid_spec beside newPdu.eventId)
      rintro shorteventid numbered ⟨beside, event, keys⟩
      rw [← keys] at key
      rw [entryOf_last]
      split
      · next unchanged =>
        exact returnPrevious_spec beside (appendedState_unchanged beside stateful key event under unchanged)
      · next changed => exact saveAppended_spec beside stateful key event under changed
    · rintro failure after ⟨_, rfl, hash, pointer, missing⟩
      exact ⟨beside.1.1, fun calm => absurd missing ((orderly.2 calm.1).pointed newPdu.roomId hash pointer)⟩

end Calls

end Phantom.Rooms
