import Phantom.Rooms.Faulty

namespace Phantom.Rooms

open Phantom.Lib Phantom.Matrix Function

abbrev StateDiffRows := ShortStateHash → Option (List UInt8)

variable (rows : StateDiffRows) (shortstatehash : ShortStateHash)

def RowOf (diff : StateDiff) : Prop :=
  ∃ value, rows shortstatehash = some value ∧ (StateDiff.ofRow value : Outcome Error StateDiff) = .ok diff

/-- The full state of the last frame of a stack. Here and below the last frame comes first. -/
def topState : List ShortStateInfo → CompressedState
  | [] => ∅
  | frame :: _ => frame.fullState

def topHash (stack : List ShortStateInfo) : Option ShortStateHash :=
  stack.head?.map ShortStateInfo.shortstatehash

def topNumber : List ShortStateInfo → Nat
  | [] => 0
  | frame :: _ => frame.shortstatehash.toNat

/-- Each frame has its row over the frame under it, with a diff that fits what lies there. -/
inductive Layers (rows : StateDiffRows) : List ShortStateInfo → Prop where
  | nil : Layers rows []
  | push {frame : ShortStateInfo} {below : List ShortStateInfo} (layers : Layers rows below)
      (row : RowOf rows frame.shortstatehash ⟨topHash below, frame.added, frame.removed⟩)
      (later : topNumber below < frame.shortstatehash.toNat)
      (fits : Fits (topState below) frame.added frame.removed)
      (full : frame.fullState = patched (topState below) frame.added frame.removed) :
      Layers rows (frame :: below)

section Stacks

variable {rows more : StateDiffRows} {other : ShortStateInfo} {stack below : List ShortStateInfo}

theorem RowOf.unique {hash : ShortStateHash} {diff other : StateDiff}
    (left : RowOf rows hash diff) (right : RowOf rows hash other) : diff = other := by
  obtain ⟨value, found, read⟩ := left
  obtain ⟨value', found', read'⟩ := right
  grind

section

variable (layers : Layers rows stack)
include layers

theorem Layers.length_le : stack.length ≤ topNumber stack := by
  induction layers with
  | nil => exact Nat.le_refl 0
  | push _ _ later _ _ ih =>
    rw [List.length_cons]
    simp only [topNumber]
    omega

theorem Layers.mono (extends_ : ∀ hash value, rows hash = some value → more hash = some value) : Layers more stack := by
  induction layers with
  | nil => exact .nil
  | push _ row later fits full ih =>
    obtain ⟨value, found, read⟩ := row
    exact .push ih ⟨value, extends_ _ _ found, read⟩ later fits full

theorem Layers.suffix (suffix : below <:+ stack) : Layers rows below := by
  induction layers with
  | nil =>
    rw [List.suffix_nil.mp suffix]
    exact .nil
  | push inner row later fits full ih =>
    rcases List.suffix_cons_iff.mp suffix with rfl | inside
    · exact .push inner row later fits full
    · exact ih inside

theorem Layers.topNumber_le (suffix : below <:+ stack) : topNumber below ≤ topNumber stack := by
  induction layers with
  | nil =>
    rw [List.suffix_nil.mp suffix]
  | push inner row later fits full ih =>
    rcases List.suffix_cons_iff.mp suffix with rfl | inside
    · exact Nat.le_refl _
    · exact Nat.le_trans (ih inside) (Nat.le_of_lt later)

end

theorem Layers.unique {left right : List ShortStateInfo} (one : Layers rows left)
    (two : Layers rows right) (same : topHash left = topHash right) : left = right := by
  induction one generalizing right with
  | nil =>
    cases two with
    | nil => rfl
    | push => cases same
  | @push frame below layers row later fits full ih =>
    cases two with
    | nil => cases same
    | @push other below' layers' row' later' fits' full' =>
      have hashes : frame.shortstatehash = other.shortstatehash := Option.some.inj same
      rw [← hashes] at row'
      have diffs := row.unique row'
      cases frame
      cases other
      grind

end Stacks

/-- The hash loads as the state, from four frames at most. -/
def Stacked (state : CompressedState) : Prop :=
  ∃ frames, Layers rows frames ∧ topHash frames = some shortstatehash ∧ topState frames = state ∧ frames.length ≤ 4

def CacheSound (cache : ShortStateHash → Option (List ShortStateInfo)) : Prop :=
  ∀ shortstatehash stack, cache shortstatehash = some stack →
    ∃ frames, stack = frames.reverse ∧ Layers rows frames ∧ topHash frames = some shortstatehash

def Recached (store after : Store) : Prop :=
  ∃ cache, CacheSound store.statediffs cache ∧ after = { store with stateinfoCache := cache }

section Loading

variable {store after : Store} {frames : List ShortStateInfo} {hash : ShortStateHash}

theorem Recached.refl (sound : CacheSound store.statediffs store.stateinfoCache) : Recached store store :=
  ⟨store.stateinfoCache, sound, rfl⟩

theorem Recached.statediffs (recached : Recached store after) : after.statediffs = store.statediffs := by
  obtain ⟨cache, _, rfl⟩ := recached
  rfl

theorem Recached.remember (recached : Recached store after) (layers : Layers store.statediffs frames)
    (top : topHash frames = some hash) : Recached store { after with
      stateinfoCache := update after.stateinfoCache hash (some frames.reverse) } := by
  obtain ⟨cache, sound, rfl⟩ := recached
  refine ⟨update cache hash (some frames.reverse), ?_, rfl⟩
  intro key stack held
  by_cases same : key = hash
  · grind
  · rw [update_of_ne same] at held
    exact sound key stack held

theorem bottomFrame {frame : ShortStateInfo} (fits : Fits (topState []) frame.added frame.removed)
    (full : frame.fullState = patched (topState []) frame.added frame.removed) :
    (⟨frame.shortstatehash, frame.added, frame.added, frame.removed⟩ : ShortStateInfo) = frame := by
  have s : frame.fullState = frame.added := by
    rw [full, fits.removed_empty]
    simp [patched, topState]
  exact congrArg (fun s => ShortStateInfo.mk frame.shortstatehash s frame.added frame.removed) s.symm

namespace Faulty

open Action

variable {faults : Faults Operation} {s : Flaky Store}

def Unreadable (faults : Faults Operation) : Prop := ∃ turn, faults turn .getStatediff ≠ .done

theorem getStatediff_row {diff : StateDiff} (row : RowOf s.store.statediffs hash diff) :
    (getStatediff faults hash).wp s (fun value after => value = diff ∧ after.store = s.store)
      (fun failure after => (∃ error, failure = .err error) ∧ after.store = s.store ∧ Unreadable faults) := by
  obtain ⟨value, found, read⟩ := row
  apply wp_seq (wp_mapErr (wp_mono (Flaky.wp_readRow _) (fun _ _ spec => spec) _))
  · grind [wp_lift_ok]
  · exact fun _ _ failed => failed
  · rintro failure after ⟨⟨error, same⟩, kept, failed⟩
    rw [same]
    refine ⟨⟨_, rfl⟩, kept, failed.resolve_right ?_⟩
    rw [found]
    exact nofun

theorem loadWithin_layers {depth : Nat} (sound : CacheSound s.store.statediffs s.store.stateinfoCache)
    (layers : Layers s.store.statediffs frames) (top : topHash frames = some hash) (enough : frames.length ≤ depth) :
    (loadWithin faults depth hash).wp s (fun stack after => stack = frames.reverse ∧ Recached s.store after.store)
      (fun failure after => (∃ error, failure = .err error) ∧ Recached s.store after.store ∧ Unreadable faults) := by
  induction depth generalizing frames hash s with
  | zero =>
    have nothing : frames = [] := List.eq_nil_of_length_eq_zero (by omega)
    rw [nothing] at top
    cases top
  | succ depth ih =>
    rw [loadWithin, wp_bind, Flaky.wp_within_get]
    cases layers with
    | nil => cases top
    | @push frame below inner row later fits full =>
      have layers : Layers s.store.statediffs (frame :: below) := .push inner row later fits full
      cases held : s.store.stateinfoCache hash with
      | some stack =>
        obtain ⟨cached, rfl, cachedLayers, cachedTop⟩ := sound hash stack held
        have same := cachedLayers.unique layers (cachedTop.trans top.symm)
        exact ⟨by rw [same], .refl sound⟩
      | none =>
        cases top
        have built : (newShortstatehashInfo faults (loadWithin faults depth) frame.shortstatehash).wp s
            (fun stack after => stack = (frame :: below).reverse ∧ Recached s.store after.store)
            (fun failure after => (∃ error, failure = .err error) ∧ Recached s.store after.store ∧
              Unreadable faults) := by
          apply wp_seq (getStatediff_row row)
          · rintro diff read ⟨found, kept⟩
            rw [found]
            cases below with
            | nil =>
              refine ⟨congrArg (fun frame => [frame]) (bottomFrame fits full), ?_⟩
              rw [kept]
              exact .refl sound
            | cons parent rest =>
              have fewer : (parent :: rest).length ≤ depth := by
                rw [List.length_cons] at enough
                omega
              rw [← kept] at sound inner ⊢
              apply wp_then (@ih (parent :: rest) parent.shortstatehash read sound inner rfl fewer)
              rintro stack after ⟨same, recached⟩
              rw [same, wp_bind, List.getLast?_reverse, List.head?_cons]
              simp only [topState] at full
              refine ⟨?_, recached⟩
              rw [← full]
              exact List.reverse_cons.symm
          · grind [Recached.refl]
        apply wp_then built
        rintro stack after ⟨same, recached⟩
        rw [same, wp_bind, Flaky.wp_within_modify, wp_pure]
        exact ⟨rfl, recached.remember layers rfl⟩

end Faulty

theorem loadWithin_layers {depth : Nat} (sound : CacheSound store.statediffs store.stateinfoCache)
    (layers : Layers store.statediffs frames) (top : topHash frames = some hash) (enough : frames.length ≤ depth) :
    (loadWithin depth hash).wp store
      (fun stack after => stack = frames.reverse ∧ Recached store after) (fun _ _ => False) := by
  apply (Faulty.follows_loadWithin depth hash).wp
  apply Action.wp_mono (Faulty.loadWithin_layers sound layers top enough) fun _ _ loaded => loaded
  rintro failure after ⟨_, _, turn, unreadable⟩
  exact unreadable rfl

theorem Layers.length_le_hash {rows : StateDiffRows} (layers : Layers rows frames) (top : topHash frames = some hash) :
    frames.length ≤ hash.toNat + 1 := by
  have length := layers.length_le
  cases frames with
  | nil => cases top
  | cons frame below =>
    cases top
    simp only [topNumber] at length
    omega

theorem loadShortstatehashInfo_layers (sound : CacheSound store.statediffs store.stateinfoCache)
    (layers : Layers store.statediffs frames) (top : topHash frames = some hash) :
    (loadShortstatehashInfo hash).wp store
      (fun stack after => stack = frames.reverse ∧ Recached store after) (fun _ _ => False) :=
  loadWithin_layers sound layers top (layers.length_le_hash top)

theorem loadShortstatehashInfo_absent (sound : CacheSound store.statediffs store.stateinfoCache)
    (absent : store.statediffs hash = none) : (loadShortstatehashInfo hash).wp store (fun _ _ => False)
      (fun failure after => (∃ error, failure = .err error) ∧ after = store) := by
  have uncached : store.stateinfoCache hash = none := by
    cases held : store.stateinfoCache hash with
    | none => rfl
    | some stack =>
      obtain ⟨frames, _, layers, top⟩ := sound hash stack held
      cases layers with
      | nil => cases top
      | push _ row _ _ _ =>
        cases top
        obtain ⟨value, found, _⟩ := row
        rw [absent] at found
        cases found
  rw [loadShortstatehashInfo, loadWithin, Action.wp_bind, Action.wp_get, uncached]
  rw [newShortstatehashInfo, Action.wp_bind, Action.wp_bind, getStatediff, Action.wp_bind,
    Action.wp_get, Action.wp_bind, absent]
  exact ⟨⟨_, rfl⟩, rfl⟩

end Loading

section Saving

variable {rows : StateDiffRows} {parentStates : List ShortStateInfo} {diff : StateDiff}
variable {statediffnew statediffremoved s : CompressedState} {diffToSibling : Nat}

theorem mergeIntoParent_eq (parent : ShortStateInfo) (statediffnew statediffremoved : CompressedState) :
    mergeIntoParent parent statediffnew statediffremoved = ((parent.added \ statediffremoved) ∪
          (statediffnew \ (parent.removed ∪ (statediffremoved \ parent.added))),
        (parent.removed ∪ (statediffremoved \ parent.added)) \ statediffnew) := by
  simp only [mergeIntoParent, cancelOrInsert_eq _ CompressedState.nodup_iter, CompressedState.toFinset_iter]

/-- The row that is written stands over some of the parent frames, at most three of them, fits what
    lies there and leads to the same state. -/
theorem statediffToSave_layers (layers : Layers rows parentStates)
    (leads : Leads (topState parentStates) statediffnew statediffremoved s)
    (saved : statediffToSave statediffnew statediffremoved diffToSibling parentStates = .ok diff) :
    ∃ below, below <:+ parentStates ∧ below.length ≤ 3 ∧ diff.parent = topHash below ∧
      Leads (topState below) diff.added diff.removed s := by
  induction layers generalizing statediffnew statediffremoved diffToSibling with
  | nil =>
    obtain ⟨_, _, saved⟩ := Outcome.bind_eq_ok.mp saved
    cases saved
    exact ⟨[], List.suffix_refl [], Nat.zero_le 3, rfl, leads⟩
  | @push parent below inner row later parentFits full ih =>
    have merged : ∀ sibling, statediffToSave (mergeIntoParent parent statediffnew statediffremoved).1
          (mergeIntoParent parent statediffnew statediffremoved).2 sibling below = .ok diff →
        ∃ under, under <:+ parent :: below ∧ under.length ≤ 3 ∧ diff.parent = topHash under ∧
          Leads (topState under) diff.added diff.removed s := by
      grind [mergeIntoParent_eq, Fits.merge, topState]
    obtain ⟨diffsum, _, saved⟩ := Outcome.bind_eq_ok.mp saved
    split at saved
    · exact merged diffsum saved
    · next shallow =>
      obtain ⟨parentDiff, _, saved⟩ := Outcome.bind_eq_ok.mp saved
      obtain ⟨square, _, saved⟩ := Outcome.bind_eq_ok.mp saved
      obtain ⟨doubled, _, saved⟩ := Outcome.bind_eq_ok.mp saved
      obtain ⟨bound, _, saved⟩ := Outcome.bind_eq_ok.mp saved
      split at saved
      · exact merged diffsum saved
      · cases saved
        refine ⟨parent :: below, List.suffix_refl _, ?_, rfl, leads⟩
        rw [List.length_cons]
        omega

theorem statediffToSave_failsOnly :
    (statediffToSave statediffnew statediffremoved diffToSibling parentStates).FailsOnly Overflow := by
  induction parentStates generalizing statediffnew statediffremoved diffToSibling with
  | nil =>
    apply Outcome.FailsOnly.bind checked_failsOnly
    exact fun _ _ => .ok _
  | cons parent parentStates ih =>
    apply Outcome.FailsOnly.bind checked_failsOnly
    intro diffsum _
    split
    · exact ih
    apply Outcome.FailsOnly.bind checked_failsOnly
    intro parentDiff _
    apply Outcome.FailsOnly.bind checked_failsOnly
    intro square _
    apply Outcome.FailsOnly.bind checked_failsOnly
    intro doubled _
    apply Outcome.FailsOnly.bind checked_failsOnly
    intro bound _
    split
    · exact ih
    · exact .ok _

theorem topHash_ne_zero (layers : Layers rows parentStates) : topHash parentStates ≠ some 0 := by
  intro zero
  cases layers with
  | nil => cases zero
  | push _ _ later _ _ =>
    rw [topHash, List.head?_cons, Option.map_some, Option.some.injEq] at zero
    rw [zero] at later
    exact absurd later (Nat.not_lt_zero _)

theorem Layers.save {hash : ShortStateHash} (layers : Layers rows parentStates)
    (leads : Leads (topState parentStates) statediffnew statediffremoved s)
    (named : ∀ event ∈ s, event.shortstatekey ≠ 0)
    (absent : rows hash = none) (later : topNumber parentStates < hash.toNat)
    (saved : statediffToSave statediffnew statediffremoved diffToSibling parentStates = .ok diff) :
    Stacked (update rows hash (some diff.toRow)) hash s := by
  obtain ⟨below, suffix, short, parented, leading⟩ := statediffToSave_layers layers leads saved
  have under := layers.suffix suffix
  have extended : ∀ other value, rows other = some value → update rows hash (some diff.toRow) other = some value := by
    grind
  have row : RowOf (update rows hash (some diff.toRow)) hash ⟨topHash below, diff.added, diff.removed⟩ := by
    refine ⟨diff.toRow, update_self _ _ _, ?_⟩
    rw [← parented]
    apply diff.ofRow_toRow
    · rw [parented]
      exact topHash_ne_zero under
    · exact fun event mem => named event (leading.added_subset mem)
  have above := Nat.lt_of_le_of_lt (layers.topNumber_le suffix) later
  exact ⟨⟨hash, s, diff.added, diff.removed⟩ :: below,
    .push (under.mono extended) row above leading.toFits leading.reached.symm, rfl, rfl, Nat.succ_le_succ short⟩

end Saving

end Phantom.Rooms
