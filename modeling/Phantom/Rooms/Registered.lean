import Phantom.Rooms.Loadable

namespace Phantom.Rooms.Faulty

open Phantom.Lib Phantom.Matrix Phantom.Lib.Action Function

section Calls

variable {faults : Faults Operation} {s : Flaky Store} {ledger : Ledger} {store : Store}
variable {hash : ShortStateHash} {issued : List ShortStateHash} {frames : List ShortStateInfo}
variable {sha256 : List UInt8 → Digest} {saved statediffnew statediffremoved : CompressedState} {diffToSibling : Nat}

theorem Registered.recached {after : Store} (registered : Registered issued ledger hash store)
    (recached : Recached store after) : Registered issued ledger hash after := by
  have loadable := registered.1.recached recached
  obtain ⟨cache, _, rfl⟩ := recached
  exact ⟨loadable, registered.2⟩

theorem saveStateFromDiff_spec (registered : Registered issued ledger hash s.store)
    (layers : Layers s.store.statediffs frames) (leads : Leads (topState frames) statediffnew statediffremoved saved)
    (keyed : Keyed saved) (small : saved.card ≤ maxEntries) (sibling : diffToSibling ≤ 2 * maxEntries)
    (sure : ∀ turn, faults turn .putStatediff ≠ .refused) :
    (saveStateFromDiff faults hash statediffnew statediffremoved diffToSibling frames.reverse).wp s
      (fun _ after => Sound (hash :: issued) after.store) (fun _ _ => False) := by
  obtain ⟨⟨consistent, backed⟩, awaited⟩ := registered
  have fresh := awaited.fresh
  have sized := Loadable.frames_sized ⟨consistent, backed⟩ layers
  obtain ⟨diff, computed⟩ := statediffToSave_ok layers sized leads small sibling
  rw [saveStateFromDiff, List.reverse_reverse, computed, wp_bind]
  apply wp_lift_ok
  apply wp_sure (Flaky.wp_put_sure sure)
  intro _ after same
  rw [wp_pure, same]
  refine ⟨update ledger hash (some saved), consistent.save awaited layers leads keyed computed, ?_, ?_, ?_, ?_⟩
  · grind [backed.registered]
  · grind [backed.pointed]
  · grind [backed.known]
  · intro other entered held
    by_cases same : other = hash
    · grind
    · rw [update_of_ne same] at held
      exact backed.sized other entered held

theorem getRoomShortstatehash_spec (loadable : Loadable issued none ledger s.store) (roomId : RoomId) :
    (getRoomShortstatehash faults roomId).attempt.wp s
      (fun prev after => after.store = s.store ∧ ∀ hash, prev = some hash → ledger hash ≠ none)
      (fun _ _ => False) := by
  apply wp_mono (Flaky.wp_lookup _) _ fun _ _ impossible => impossible
  exact fun prev after looked => ⟨looked.1, fun hash same => loadable.2.pointed roomId hash (looked.2 hash same)⟩

theorem saveState_spec (sound : Sound issued s.store) (keyed : Keyed saved) (small : saved.card ≤ maxEntries)
    (sure : ∀ turn, faults turn .putStatediff ≠ .refused) (roomId : RoomId) :
    (saveState faults sha256 roomId saved).wp s
      (fun answer after => Sound (answer.shortstatehash :: issued) after.store) (Left issued) := by
  obtain ⟨ledger, loadable⟩ := sound
  apply wp_sure (getRoomShortstatehash_spec loadable roomId)
  rintro prev read ⟨same, pointed⟩
  rw [← same] at loadable
  apply wp_then (getOrCreateShortstatehash_spec loadable _)
  rintro ⟨hash, existed⟩ numbered (⟨rfl, held, same⟩ | ⟨rfl, registered⟩)
  · rw [← same] at loadable
    dsimp only
    split
    · exact loadable.sound_cons held
    · apply wp_sure (loadOrEmpty_spec loadable pointed)
      rintro stack loaded ⟨recached, _⟩
      exact (loadable.recached recached).sound_cons held
  · have fresh : some hash ≠ prev := fun same => pointed hash same.symm registered.2.fresh
    dsimp only
    rw [if_neg fresh]
    apply wp_sure (loadOrEmpty_spec registered.1 pointed)
    rintro stack loaded ⟨recached, frames, same, layers⟩
    simp only [same]
    apply wp_sure (saveStateFromDiff_spec (registered.recached recached) layers (diffFrom_leads frames saved) keyed
      small (by decide) sure)
    exact fun _ _ sound => sound

variable {shorteventid : ShortEventId}

theorem recordEventState_spec {recorded : Option ShortStateHash} (Holds : Store → Prop)
    (kept : ∀ rows, Holds { s.store with eventShortstatehashes := rows }) :
    (recordEventState faults shorteventid recorded).wp s (fun _ after => Holds after.store) (fun _ _ => False) := by
  have holds : Holds s.store := kept s.store.eventShortstatehashes
  cases recorded with
  | none => exact holds
  | some recorded => exact put_spec holds (kept _)

theorem setEventState_spec (sound : Sound issued s.store) (keyed : Keyed saved) (small : saved.card ≤ maxEntries)
    (sure : ∀ turn, faults turn .putStatediff ≠ .refused) (readable : ¬ Unreadable faults) (eventId : EventId)
    (roomId : RoomId) : (setEventState faults sha256 eventId roomId saved).wp s
      (fun answer after => Sound (answer :: issued) after.store) (Left issued) := by
  obtain ⟨ledger, loadable⟩ := sound
  apply wp_then (getOrCreateShorteventid_spec ⟨loadable, rfl, rfl⟩ eventId)
  rintro shorteventid noted ⟨loadable, _⟩
  apply wp_sure (getRoomShortstatehash_spec loadable roomId)
  rintro prev read ⟨same, pointed⟩
  rw [← same] at loadable
  apply wp_then (getOrCreateShortstatehash_spec loadable _)
  rintro ⟨hash, existed⟩ numbered answered
  have saving : (unlessDone existed (do
      let statesParents ← loadPrevious faults prev
      saveStateFromDiff faults hash (diffFrom statesParents saved).1
        (diffFrom statesParents saved).2 1000000 statesParents)).wp numbered
      (fun _ after => Sound (hash :: issued) after.store) (fun _ _ => False) := by
    rcases answered with ⟨rfl, held, same⟩ | ⟨rfl, registered⟩
    · rw [← same] at loadable
      exact loadable.sound_cons held
    · apply wp_seq (loadPrevious_spec registered.1 pointed) _ (fun _ _ failed => readable failed.2.2)
      rintro stack loaded ⟨recached, frames, same, under⟩
      rw [same]
      exact saveStateFromDiff_spec (registered.recached recached) under.layers (diffFrom_leads frames saved) keyed
        small (by decide) sure
  apply wp_sure saving
  intro _ written sound
  exact wp_sure (recordEventState_spec (Sound (hash :: issued)) fun _ => sound) fun _ _ sound => sound

theorem readRoom_spec (roomId : RoomId) : (result (getRoomShortstatehash faults roomId)).wp s
      (fun prev after => after.store = s.store ∧ ∀ hash, prev.toOption = some hash →
          s.store.roomShortstatehashes roomId = some hash) (fun _ _ => False) := by
  have read : (getRoomShortstatehash faults roomId).wp s
      (fun value after => s.store.roomShortstatehashes roomId = some value ∧ after.store = s.store)
      (fun failure after => (∃ other, failure = .err other) ∧ after.store = s.store ∧ _) := Flaky.wp_readRow _
  unfold Action.wp result at *
  cases ran : getRoomShortstatehash faults roomId s with
  | mk outcome after =>
    rw [ran] at read
    cases outcome with
    | ok value =>
      refine ⟨read.2, ?_⟩
      intro hash same
      rw [read.1]
      exact same
    | error failure =>
      obtain ⟨⟨error, rfl⟩, same, _⟩ := read
      exact ⟨same, nofun⟩

theorem orError_spec {prev : Except Error ShortStateHash} {message : String}
    (loadable : Loadable issued none ledger s.store)
    (pointed : ∀ hash, prev.toOption = some hash → ledger hash ≠ none) :
    (orError prev message).wp s (fun answer after => Sound (answer :: issued) after.store) (Left issued) := by
  cases prev with
  | ok hash => exact loadable.sound_cons (pointed hash rfl)
  | error error => exact ⟨ledger, loadable⟩

def roomEntries (store : Store) (roomId : RoomId) : Nat :=
  match store.roomShortstatehashes roomId with
  | none => 0
  | some shortstatehash =>
    match (Rooms.loadShortstatehashInfo shortstatehash store).1 with
    | .ok stack => (stack.getLast?.map fun info => info.fullState.card).getD 0
    | .error _ => 0

theorem roomEntries_eq {roomId : RoomId} (consistent : Consistent store ledger)
    (room : store.roomShortstatehashes roomId = some hash) (held : ledger hash = some saved) :
    roomEntries store roomId = saved.card := by
  obtain ⟨frames, layers, top, full, _⟩ := consistent.stacked hash saved held
  unfold roomEntries
  rw [room]
  simp only [load_eq consistent.cached layers top, List.getLast?_reverse]
  cases frames with
  | nil => cases top
  | cons frame below => exact congrArg Finset.card full

theorem card_replace_le (full : CompressedState) (new : CompressedStateEvent) :
    (full.replace new).card ≤ full.card + 1 := by
  grind [CompressedState.replace]

theorem saveAppended_spec {shortstatekey : ShortStateKey} (loadable : Loadable issued none ledger s.store)
    (layers : Layers s.store.statediffs frames) (named : shortstatekey ≠ 0)
    (changed : some (compressStateEvent shortstatekey shorteventid) ≠ (topState frames).entryOf shortstatekey)
    (small : (topState frames).card < maxEntries) (sure : ∀ turn, faults turn .putStatediff ≠ .refused) :
    (nextCount faults >>= fun hash => do
      saveStateFromDiff faults hash {compressStateEvent shortstatekey shorteventid}
        ((topState frames).entryOf shortstatekey).toFinset 2 frames.reverse
      return hash).wp s
      (fun answer after => Sound (answer :: issued) after.store) (Left issued) := by
  apply wp_then (nextCount_spec loadable)
  rintro hash counted ⟨drew, same⟩
  have registered := Registered.of_drew loadable drew
  have keyed := loadable.1.keyed_top layers
  have most := card_replace_le (topState frames) (compressStateEvent shortstatekey shorteventid)
  have layers : Layers counted.store.statediffs frames := by
    rw [same]
    exact layers
  rw [← same] at registered
  apply wp_sure (saveStateFromDiff_spec registered layers (keyed.leads_replace changed) (keyed.replace named)
    (by omega) (by decide) sure)
  exact fun _ _ sound => sound

theorem appendToState_spec (sound : Sound issued s.store) {newPdu : Pdu}
    (small : roomEntries s.store newPdu.roomId < maxEntries) (sure : ∀ turn, faults turn .putStatediff ≠ .refused) :
    (appendToState faults newPdu).wp s (fun answer after => Sound (answer :: issued) after.store) (Left issued) := by
  obtain ⟨ledger, base⟩ := sound
  apply wp_then (getOrCreateShorteventid_spec ⟨base, rfl, rfl⟩ newPdu.eventId)
  intro _ noted beside
  apply wp_sure (readRoom_spec newPdu.roomId)
  rintro prev read ⟨same, room⟩
  rw [beside.2.2] at room
  have pointed : ∀ other, prev.toOption = some other → ledger other ≠ none :=
    fun other held => base.2.pointed newPdu.roomId other (room other held)
  rw [← same] at beside
  apply wp_sure (recordEventState_spec (Beside issued ledger s.store) fun _ => beside)
  intro _ recorded beside
  cases newPdu.stateKey with
  | none => exact orError_spec beside.1 pointed
  | some stateKey =>
    apply wp_seq (loadPrevious_spec beside.1 pointed) _ fun _ _ failed => ⟨ledger, beside.1.recached failed.2.1⟩
    rintro stack loaded ⟨recached, frames, same, under⟩
    have beside := beside.recached recached
    rw [same]
    apply wp_then (getOrCreateShortstatekey_spec beside newPdu.kind stateKey)
    rintro shortstatekey keyed ⟨named, besideKeyed⟩
    apply wp_then (getOrCreateShorteventid_spec besideKeyed newPdu.eventId)
    intro shorteventid numbered besideNumbered
    rw [entryOf_last]
    dsimp only
    split
    · exact orError_spec besideNumbered.1 pointed
    · next changed =>
      have fewer : (topState frames).card < maxEntries := by
        cases frames with
        | nil => decide
        | cons frame below =>
          have held := beside.1.1.held under.layers
          rw [roomEntries_eq base.1 (room _ under.top.symm) held] at small
          exact small
      have layers := under.layers
      rw [beside.2.1, ← besideNumbered.2.1] at layers
      exact saveAppended_spec besideNumbered.1 layers named changed fewer sure

end Calls

structure Request where
  call : Call
  faults : Faults Operation

structure World where
  store : Store
  issued : List ShortStateHash

def World.empty : World := ⟨.empty, []⟩

namespace World

def settle {α : Type} (world : World) (action : FaultyAction α) (hashes : α → List ShortStateHash) : World :=
  match action ⟨world.store, 0⟩ with
  | (.ok value, after) => ⟨after.store, hashes value ++ world.issued⟩
  | (.error _, after) => ⟨after.store, world.issued⟩

variable (sha256 : List UInt8 → Digest)

section

variable (world : World) (request : Request)

def after : World :=
  match request.call with
  | .saveState roomId state =>
    world.settle (saveState request.faults sha256 roomId state.events) fun answer => [answer.shortstatehash]
  | .setEventState eventId roomId state =>
    world.settle (setEventState request.faults sha256 eventId roomId state.events) fun answer => [answer]
  | .appendToState newPdu => world.settle (appendToState request.faults newPdu) fun answer => [answer]
  | .setRoomState roomId shortstatehash =>
    world.settle (setRoomState request.faults roomId shortstatehash) fun _ => []
  | .deleteRoomShortstatehash roomId =>
    world.settle (deleteRoomShortstatehash request.faults roomId) fun _ => []
  | .nextCount => world.settle (nextCount request.faults) fun _ => []
  | .evict dropped => { world with store := evict dropped world.store }

def Step (next : World) : Prop :=
  (∀ roomId shortstatehash, request.call = .setRoomState roomId shortstatehash → shortstatehash ∈ world.issued) ∧
    next = world.after sha256 request

/-- The row of a save is not refused, the rows that an event's state is saved over can be read, and no state
    is too large. -/
def Careful : Prop :=
  match request.call with
  | .saveState _ state =>
    state.events.card ≤ maxEntries ∧ ∀ turn, request.faults turn .putStatediff ≠ .refused
  | .setEventState _ _ state =>
    state.events.card ≤ maxEntries ∧ (∀ turn, request.faults turn .putStatediff ≠ .refused) ∧
      ∀ turn, request.faults turn .getStatediff = .done
  | .appendToState newPdu =>
    roomEntries world.store newPdu.roomId < maxEntries ∧ ∀ turn, request.faults turn .putStatediff ≠ .refused
  | _ => True

def CarefulStep (next : World) : Prop :=
  world.Careful request ∧ world.Step sha256 request next

end

end World

section Runs

variable {sha256 : List UInt8 → Digest} {world w next : World} {requests : List Request}
variable {issued : List ShortStateHash} {store : Store}

theorem sound_settle {α : Type} {action : FaultyAction α} {hashes : α → List ShortStateHash}
    (spec : action.wp ⟨w.store, 0⟩ (fun value after => Sound (hashes value ++ w.issued) after.store)
      (Left w.issued)) : Sound (w.settle action hashes).issued (w.settle action hashes).store := by
  grind [wp, World.settle, Left]

theorem sound_pointed {roomId : RoomId} {pointer : Option ShortStateHash} (sound : Sound issued store)
    (mem : ∀ hash, pointer = some hash → hash ∈ issued) :
    Sound issued { store with roomShortstatehashes := update store.roomShortstatehashes roomId pointer } := by
  obtain ⟨ledger, consistent, backed⟩ := sound
  refine ⟨ledger, consistent, { backed with pointed := ?_ }⟩
  intro other hash held
  dsimp only at held
  by_cases same : other = roomId
  · rw [same, update_self] at held
    exact backed.known hash (mem hash held)
  · rw [update_of_ne same] at held
    exact backed.pointed other hash held

theorem sound_evict (sound : Sound issued store)
    (dropped : ShortStateHash → Bool) : Sound issued (evict dropped store) := by
  obtain ⟨ledger, consistent, backed⟩ := sound
  refine ⟨ledger, { consistent with cached := ?_ }, backed⟩
  intro hash stack held
  apply consistent.cached hash stack
  grind [evict]

theorem sound_empty : Sound World.empty.issued World.empty.store :=
  ⟨fun _ => none, ⟨nofun, fun _ _ => rfl, fun _ held => absurd rfl held, nofun, nofun, nofun⟩, nofun, nofun, nofun, nofun⟩

theorem sound_step {req : Request} (sound : Sound w.issued w.store)
    (step : w.CarefulStep sha256 req next) : Sound next.issued next.store := by
  obtain ⟨careful, issued, rfl⟩ := step
  unfold World.after
  unfold World.Careful at careful
  cases called : req.call with
  | saveState roomId s =>
    rw [called] at careful
    exact sound_settle (saveState_spec sound s.keyed careful.1 careful.2 roomId)
  | setEventState eventId roomId s =>
    rw [called] at careful
    have readable : ¬ Unreadable req.faults := fun ⟨turn, failed⟩ => failed (careful.2.2 turn)
    exact sound_settle (setEventState_spec sound s.keyed careful.1 careful.2.1 readable eventId roomId)
  | appendToState newPdu =>
    rw [called] at careful
    exact sound_settle (appendToState_spec sound careful.1 careful.2)
  | setRoomState roomId hash =>
    have pointed : Sound w.issued (Rooms.setRoomState roomId hash w.store) := by
      apply sound_pointed sound
      rintro _ ⟨⟩
      exact issued roomId hash called
    exact sound_settle (wp_mono (put_spec sound pointed) (fun _ _ sound => sound) fun _ _ impossible => impossible.elim)
  | deleteRoomShortstatehash roomId =>
    have deleted : Sound w.issued (Rooms.deleteRoomShortstatehash roomId w.store) := sound_pointed sound nofun
    exact sound_settle (wp_mono (Flaky.wp_write sound deleted) (fun _ _ sound => sound) fun _ _ failed => failed.2)
  | nextCount =>
    obtain ⟨ledger, loadable⟩ := sound
    apply sound_settle
    apply wp_mono (nextCount_spec loadable) _ fun _ _ left => left
    rintro short after ⟨drew, same⟩
    rw [same]
    exact ⟨ledger, (loadable.1.drawn drew).1, loadable.2⟩
  | evict dropped => exact sound_evict sound dropped

/-- In a run of saves in which no row write is refused, no row is unreadable while the state of an event is
    saved, and no state is too large, every hash that the lookup by digest reports as existing is loaded with
    all the rows under it. -/
theorem registered_hash_loadable (run : Run (World.CarefulStep sha256) World.empty requests world)
    (faults : Faults Operation) (digest : Digest) (shortstatehash : ShortStateHash)
    (existed : (getOrCreateShortstatehash faults digest ⟨world.store, 0⟩).1 = .ok (shortstatehash, true)) :
    ∃ frames, Layers world.store.statediffs frames ∧ topHash frames = some shortstatehash ∧
      (Rooms.loadShortstatehashInfo shortstatehash world.store).1 = .ok frames.reverse := by
  obtain ⟨ledger, loadable⟩ := run.invariant (fun world => Sound world.issued world.store)
    (fun _ _ _ sound step => sound_step sound step) sound_empty
  have held : ledger shortstatehash ≠ none := by
    have looked := @getOrCreateShortstatehash_spec faults ⟨world.store, 0⟩ world.issued ledger loadable digest
    unfold Action.wp at looked
    cases ran : getOrCreateShortstatehash faults digest ⟨world.store, 0⟩ with
    | mk outcome after =>
      rw [ran] at existed looked
      cases existed
      rcases looked with ⟨_, held, _⟩ | ⟨new, _⟩
      · exact held
      · cases new
  obtain ⟨full, entered⟩ := Option.ne_none_iff_exists'.mp held
  obtain ⟨frames, layers, top, _, _⟩ := loadable.1.stacked shortstatehash full entered
  exact ⟨frames, layers, top, load_eq loadable.1.cached layers top⟩

/-- In such a run, every hash that a caller got and every room's current one is loaded, from at most four rows. -/
theorem current_state_loadable (run : Run (World.CarefulStep sha256) World.empty requests world) (hash : ShortStateHash)
    (used : hash ∈ world.issued ∨ ∃ roomId, world.store.roomShortstatehashes roomId = some hash) :
    ∃ frames, frames.length ≤ 4 ∧ topHash frames = some hash ∧
      (Rooms.loadShortstatehashInfo hash world.store).1 = .ok frames.reverse := by
  obtain ⟨ledger, consistent, backed⟩ := run.invariant (fun world => Sound world.issued world.store)
    (fun _ _ _ sound step => sound_step sound step) sound_empty
  have held : ledger hash ≠ none := by
    rcases used with mem | ⟨roomId, pointed⟩
    · exact backed.known hash mem
    · exact backed.pointed roomId hash pointed
  obtain ⟨full, entered⟩ := Option.ne_none_iff_exists'.mp held
  obtain ⟨frames, layers, top, _, few⟩ := consistent.stacked hash full entered
  exact ⟨frames, few, top, load_eq consistent.cached layers top⟩

end Runs

namespace Sample

open Phantom.Rooms.Sample (room topic)

def renamed : StateToSave where
  events := {⟨5, 7⟩}
  keyed := ⟨by decide, by decide⟩

def fine : Faults Operation := fun _ _ => .done

def unreadable : Faults Operation := fun _ kind => if kind = .getStatediff then .refused else .done

def saves (faults : Faults Operation) : List Request :=
  [⟨.saveState room topic, fine⟩, ⟨.setRoomState room 1, fine⟩, ⟨.setEventState ⟨"$name"⟩ room renamed, faults⟩]

def worldAfter (requests : List Request) : World := requests.foldl (World.after id) .empty

theorem issued_of_mem {w : World} {roomId : RoomId} {hash : ShortStateHash}
    (mem : hash ∈ w.issued) (other : RoomId) (pointed : ShortStateHash)
    (same : Call.setRoomState roomId hash = .setRoomState other pointed) : pointed ∈ w.issued := by
  cases same
  exact mem

theorem saves_run (faults : Faults Operation) : Run (World.Step id) .empty (saves faults) (worldAfter (saves faults)) :=
  .cons ⟨nofun, rfl⟩ (.cons ⟨issued_of_mem (by decide), rfl⟩ (.cons ⟨nofun, rfl⟩ (.nil _)))

/-- The room's state cannot be loaded, so the state of the event is not saved and the caller gets an error, but
    its hash is on record. -/
theorem refused_read_strands_hash :
    ∃ world, Run (World.Step id) .empty (saves unreadable) world ∧ world.issued = [1] ∧
      (getOrCreateShortstatehash fine (delimited renamed.events) ⟨world.store, 0⟩).1 = .ok (3, true) ∧
      world.store.statediffs 3 = none ∧ (Rooms.loadShortstatehashInfo 3 world.store).1 = .fail (.database
        "Failed to find StateDiff from short 3: M_NOT_FOUND: Not found in database") :=
  ⟨worldAfter (saves unreadable), saves_run unreadable, by decide +kernel, by decide +kernel, by decide +kernel,
    by decide +kernel⟩

/-- The number of the event is not filed, and the row of its state is there although its write fails. -/
def shaky : Faults Operation := fun _ kind =>
  if kind = .putShorteventid then .refused else if kind = .putStatediff then .unflushed else .done

theorem shaky_run : Run (World.CarefulStep id) .empty (saves shaky) (worldAfter (saves shaky)) :=
  .cons ⟨⟨by decide +kernel, nofun⟩, nofun, rfl⟩ (.cons ⟨trivial, issued_of_mem (by decide), rfl⟩
    (.cons ⟨⟨by decide +kernel, nofun, fun _ => rfl⟩, nofun, rfl⟩ (.nil _)))

theorem registered_hash_loadable_renamed :
    ∃ frames, Layers (worldAfter (saves shaky)).store.statediffs frames ∧ topHash frames = some 3 ∧
      (Rooms.loadShortstatehashInfo 3 (worldAfter (saves shaky)).store).1 = .ok frames.reverse :=
  registered_hash_loadable shaky_run fine (delimited renamed.events) 3 (by decide +kernel)

theorem current_state_loadable_topic : ∃ frames, frames.length ≤ 4 ∧ topHash frames = some 1 ∧
    (Rooms.loadShortstatehashInfo 1 (worldAfter (saves shaky)).store).1 = .ok frames.reverse :=
  current_state_loadable shaky_run 1 (.inr ⟨room, by decide +kernel⟩)

end Sample

end Phantom.Rooms.Faulty
