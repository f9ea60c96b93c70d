import Phantom.AccountData.Concurrent
import Phantom.Lib.Swap

namespace Phantom.AccountData

open Phantom.Lib Phantom.Matrix Function

/-- Every key has at most the row that its index entry leads to. -/
structure Tables.Tidy (tables : Tables) : Prop where
  pointed : ∀ key dataId, tables.roomusertypeRoomuserdataid key = some dataId →
    ∃ count ≤ tables.count, dataId = key.withCount count
  rows : ∀ key count, tables.roomuserdataidAccountdata (key.withCount count) ≠ none →
    tables.roomusertypeRoomuserdataid key = some (key.withCount count)

def newer (base : ℕ) (dataId : DataId) : Option ℕ := if base < dataId.count then some dataId.count else none

def DataReport.swap (base : ℕ) (key : Key) : DataReport → Option (SwapEvent ℕ)
  | .looked other count prev => if other = key then some (.read count (prev.bind (newer base))) else none
  | .pointed other count => if other = key then some (.write count) else none
  | _ => none

def swaps (base : ℕ) (key : Key) (trace : List (ℕ × DataReport)) : List (SwapEvent ℕ) :=
  trace.filterMap fun entry => entry.2.swap base key

section Swaps

variable {start : Tables} {world w : DataWorld} {job : ℕ} {key : Key} {count : ℕ} {found : Option ℕ}
  {t : Tables} {base : ℕ}

theorem swaps_after {event : DataReport} : swaps base key (w.after job [event] t).trace =
      swaps base key w.trace ++ (event.swap base key).toList := by
  grind [World.after_trace, swaps]

theorem swap_cases {event : DataReport} {swap : SwapEvent ℕ} (gives : event.swap base key = some swap) :
    (∃ n prev, event = .looked key n prev ∧ swap = .read n (prev.bind (newer base))) ∨
      ∃ n, event = .pointed key n ∧ swap = .write n := by
  cases event <;> grind [DataReport.swap]

theorem mem_sights : (count, found) ∈ Swap.sights (swaps base key w.trace) ↔
    ∃ job prev, (job, .looked key count prev) ∈ w.trace ∧ found = prev.bind (newer base) := by
  simp only [Swap.sights, swaps, List.filterMap_filterMap, List.mem_filterMap, Option.bind_eq_some_iff]
  constructor
  · rintro ⟨⟨job, event⟩, mem, swap, gives, seen⟩
    obtain ⟨n, prev, rfl, rfl⟩ | ⟨n, rfl, rfl⟩ := swap_cases gives <;> cases seen
    exact ⟨job, prev, mem, rfl⟩
  · rintro ⟨job, prev, mem, rfl⟩
    exact ⟨_, mem, _, if_pos rfl, rfl⟩

theorem mem_writers : count ∈ Swap.writers (swaps base key w.trace) ↔ ∃ job, (job, .pointed key count) ∈ w.trace := by
  simp only [Swap.writers, swaps, List.filterMap_filterMap, List.mem_filterMap, Option.bind_eq_some_iff]
  constructor
  · rintro ⟨⟨job, event⟩, mem, swap, gives, wrote⟩
    obtain ⟨n, prev, rfl, rfl⟩ | ⟨n, rfl, rfl⟩ := swap_cases gives <;> cases wrote
    exact ⟨job, mem⟩
  · rintro ⟨job, mem⟩
    exact ⟨_, mem, _, if_pos rfl, rfl⟩

/-- The index entry of a key is the one from the start, or the last call to write it has written it. -/
def Indexed (start : Tables) (key : Key) (world : DataWorld) : Prop :=
  (world.store.roomusertypeRoomuserdataid key = start.roomusertypeRoomuserdataid key ∧
    Swap.cell (swaps start.count key world.trace) = none) ∨
  ∃ count, start.count < count ∧ world.store.roomusertypeRoomuserdataid key = some (key.withCount count) ∧
    Swap.cell (swaps start.count key world.trace) = some count

theorem indexed_of_written (written : dataJournal.Written start w) (key : Key) : Indexed start key w := by
  induction written with
  | blank => exact Or.inl ⟨rfl, rfl⟩
  | @entry w job event written legal ih =>
    have kept : (dataJournal.record w.store event).roomusertypeRoomuserdataid key =
          w.store.roomusertypeRoomuserdataid key →
        Swap.cell (swaps start.count key (w.after job [event] (dataJournal.record w.store event)).trace) =
          Swap.cell (swaps start.count key w.trace) →
        Indexed start key (w.after job [event] (dataJournal.record w.store event)) := by
      grind [World.after_store, Indexed]
    rw [swaps_after] at kept
    cases event with
    | looked other count prev =>
      apply kept rfl
      grind [Swap.cell_read, DataReport.swap]
    | pointed other count =>
      by_cases same : other = key
      · subst same
        obtain ⟨data, drew⟩ := drew_of_pointed (.entry written legal) (mem_after.mpr (Or.inr rfl))
        have between := (drawn_between (.entry written legal)).2 job other count data drew
        refine Or.inr ⟨count, between.1, update_self _ _ _, ?_⟩
        rw [swaps_after, DataReport.swap, if_pos rfl]
        exact Swap.cell_write
      · apply kept (update_of_ne (Ne.symm same) _ _)
        grind [DataReport.swap]
    | _ => exact kept rfl (congrArg Swap.cell (List.append_nil _))

theorem found_of_indexed (tidy : start.Tidy) (indexed : Indexed start key w) :
    (w.store.roomusertypeRoomuserdataid key).bind (newer start.count) =
      Swap.cell (swaps start.count key w.trace) := by
  rcases indexed with ⟨same, unwritten⟩ | ⟨count, new, points, wrote⟩
  · rw [same, unwritten]
    cases row : start.roomusertypeRoomuserdataid key with
    | none => rfl
    | some dataId =>
      obtain ⟨count, old, rfl⟩ := tidy.pointed key dataId row
      exact if_neg (Nat.not_lt.mpr old)
  · rw [points, wrote]
    exact if_pos new

theorem lawful_swaps (tidy : start.Tidy) (written : dataJournal.Written start w) (key : Key) :
    Swap.Lawful (swaps start.count key w.trace) := by
  induction written with
  | blank => exact .nil
  | @entry w job event written legal ih =>
    rw [swaps_after]
    cases event with
    | looked other count prev =>
      rw [DataReport.swap]
      split
      · next same =>
        subst same
        obtain ⟨⟨data, own⟩, rfl⟩ := legal
        rw [found_of_indexed tidy (indexed_of_written written other)]
        apply Swap.Lawful.read ih
        intro found sighted
        obtain ⟨reader, prev, looked, _⟩ := mem_sights.mp sighted
        have drew : (job, .drew other count data) ∈ w.trace := World.mem_own.mp (by simp [own])
        have mine := mem_own_of_count written drew looked rfl
        simp [own] at mine
      · rwa [Option.toList_none, List.append_nil]
    | pointed other count =>
      rw [DataReport.swap]
      split
      · next same =>
        subst same
        obtain ⟨data, prev, own⟩ := legal
        have looked : (job, .looked other count prev) ∈ w.trace := World.mem_own.mp (by simp [own])
        apply Swap.Lawful.write ih (mem_sights.mpr ⟨job, prev, looked, rfl⟩)
        intro wrote
        obtain ⟨writer, pointed⟩ := mem_writers.mp wrote
        have drew : (job, .drew other count data) ∈ w.trace := World.mem_own.mp (by simp [own])
        have mine := mem_own_of_count written drew pointed rfl
        simp [own] at mine
      · rwa [Option.toList_none, List.append_nil]
    | _ => exact (List.append_nil _).symm ▸ ih

theorem prev_of_looked (written : dataJournal.Written start w) {job : ℕ} {prev : Option DataId}
    (looked : (job, .looked key count prev) ∈ w.trace) : prev = start.roomusertypeRoomuserdataid key ∨
      ∃ writer n, start.count < n ∧ prev = some (key.withCount n) ∧ (writer, .pointed key n) ∈ w.trace := by
  induction written with
  | blank => cases looked
  | @entry w author event written legal ih =>
    rcases mem_after.mp looked with old | new
    · grind [mem_after]
    · cases new
      rw [legal.2]
      rcases indexed_of_written written key with ⟨same, _⟩ | ⟨n, newer, points, wrote⟩
      · exact Or.inl same
      · obtain ⟨writer, pointed⟩ := mem_writers.mp (Swap.mem_writers_of_cell wrote)
        grind [mem_after]

end Swaps

section Rows

variable {start : Tables} {w : DataWorld} {key : Key} {count : ℕ} {data : Json}

theorem pointed_of_removed (tidy : start.Tidy) (written : dataJournal.Written start w) {job : ℕ}
    (removed : (job, .removed (key.withCount count)) ∈ w.trace) :
    count ≤ start.count ∨ ∃ writer, (writer, .pointed key count) ∈ w.trace := by
  obtain ⟨other, n, looked, _⟩ := backed_of_written written removed
  rcases prev_of_looked written (World.mem_own.mp looked) with initial | ⟨writer, found, _, points, pointed⟩
  · grind [Tables.Tidy.pointed, withCount_injective]
  · grind [withCount_injective]

theorem row_iff (tidy : start.Tidy) (written : dataJournal.Written start w) (key : Key) (count : ℕ) (data : Json) :
    w.store.roomuserdataidAccountdata (key.withCount count) = some data ↔
      (start.roomuserdataidAccountdata (key.withCount count) = some data ∨
        ∃ job, (job, .stored key count data) ∈ w.trace) ∧ ∀ job, (job, .removed (key.withCount count)) ∉ w.trace := by
  induction written with
  | blank => simp
  | @entry w author event written legal ih =>
    cases event with
    | stored other n content =>
      simp only [mem_after, Prod.mk.injEq, reduceCtorEq, and_false, or_false, World.after_store]
      by_cases same : key.withCount count = other.withCount n
      · obtain ⟨rfl, rfl⟩ := withCount_injective same
        have own : w.own author = [.drew key count content] := legal
        have drew : (author, .drew key count content) ∈ w.trace := World.mem_own.mp (by simp [own])
        have between := (drawn_between written).2 _ _ _ _ drew
        have unremoved : ∀ job, (job, .removed (key.withCount count)) ∉ w.trace := by
          intro job removed
          rcases pointed_of_removed tidy written removed with old | ⟨writer, pointed⟩
          · omega
          · have mine := mem_own_of_count written drew pointed rfl
            simp [own] at mine
        have unstored : ∀ job, (job, .stored key count data) ∉ w.trace := by
          intro job stored
          have mine := mem_own_of_count written drew stored rfl
          simp [own] at mine
        have initial : start.roomuserdataidAccountdata (key.withCount count) = none := by
          by_contra present
          obtain ⟨old, below, same⟩ := tidy.pointed key _ (tidy.rows key count present)
          have n := (withCount_injective same).2
          omega
        have row : (dataJournal.record w.store (.stored key count content)).roomuserdataidAccountdata
            (key.withCount count) = some content := update_self _ _ _
        grind
      · have row : (dataJournal.record w.store (.stored other n content)).roomuserdataidAccountdata
            (key.withCount count) = w.store.roomuserdataidAccountdata (key.withCount count) := update_of_ne same _ _
        grind
    | removed dataId =>
      simp only [mem_after, Prod.mk.injEq, reduceCtorEq, and_false, or_false, World.after_store,
        DataReport.removed.injEq]
      by_cases same : key.withCount count = dataId
      · have row : (dataJournal.record w.store (.removed dataId)).roomuserdataidAccountdata
            (key.withCount count) = none := by
          rw [same]
          exact update_self _ _ _
        grind
      · have row : (dataJournal.record w.store (.removed dataId)).roomuserdataidAccountdata
            (key.withCount count) = w.store.roomuserdataidAccountdata (key.withCount count) := update_of_ne same _ _
        rw [row, ih]
        simp only [same, and_false, or_false]
    | _ =>
      simp only [mem_after, Prod.mk.injEq, reduceCtorEq, and_false, or_false]
      exact ih

end Rows

def DataReport.drawnKey : DataReport → Option Key
  | .drew key _ _ => some key
  | _ => none

def DataReport.pointedKey : DataReport → Option Key
  | .pointed key _ => some key
  | _ => none

def lastDrawer (key : Key) (trace : List (ℕ × DataReport)) : Option ℕ :=
  lastSome (fun entry => if entry.2.drawnKey = some key then some entry.1 else none) trace

def lastPointer (key : Key) (trace : List (ℕ × DataReport)) : Option ℕ :=
  lastSome (fun entry => if entry.2.pointedKey = some key then some entry.1 else none) trace

section Last

variable {start : Tables} {w : DataWorld} {key : Key} {job count : ℕ} {data : Json} {event : DataReport}

theorem lastDrawer_after {t : Tables} : lastDrawer key (w.after job [event] t).trace =
      (if event.drawnKey = some key then some job else none).or (lastDrawer key w.trace) := by
  exact lastSome_concat

theorem lastPointer_after {t : Tables} : lastPointer key (w.after job [event] t).trace =
      (if event.pointedKey = some key then some job else none).or (lastPointer key w.trace) := by
  exact lastSome_concat

theorem highest_iff (written : dataJournal.Written start w) (drew : (job, .drew key count data) ∈ w.trace) :
    (∀ other n content, (other, .drew key n content) ∈ w.trace → n ≤ count) ↔ lastDrawer key w.trace = some job := by
  induction written with
  | blank => cases drew
  | @entry w author event written legal ih =>
    rw [lastDrawer_after]
    rcases mem_after.mp drew with old | new
    · have between := (drawn_between written).2 _ _ _ _ old
      by_cases same : event.drawnKey = some key
      · cases event with
        | drew other n content =>
          cases same
          obtain ⟨past, fresh⟩ := legal
          rw [DataReport.drawnKey, if_pos rfl, Option.some_or]
          constructor
          · grind [mem_after]
          · intro last
            cases last
            have mine := World.mem_own.mpr old
            rw [past] at mine
            cases mine
        | _ => cases same
      · rw [if_neg same, Option.none_or, ← ih old]
        apply forall_congr'
        intro other
        apply forall_congr'
        intro n
        apply forall_congr'
        intro content
        have elsewhere : (other, DataReport.drew key n content) ≠ (author, event) := by
          intro equal
          exact same (by rw [← (Prod.mk.inj equal).2]; rfl)
        rw [mem_after, or_iff_left elsewhere]
    · cases new
      rw [DataReport.drawnKey, if_pos rfl, Option.some_or]
      refine iff_of_true ?_ rfl
      intro other n content drewToo
      rcases mem_after.mp drewToo with old | new
      · have between := (drawn_between written).2 _ _ _ _ old
        have fresh : count = w.store.count + 1 := legal.2
        omega
      · cases new
        exact Nat.le_refl _

theorem lastPointer_of_cell (written : dataJournal.Written start w) {base : ℕ}
    (wrote : Swap.cell (swaps base key w.trace) = some count) :
    ∃ job, lastPointer key w.trace = some job ∧ (job, .pointed key count) ∈ w.trace := by
  induction written with
  | blank => cases wrote
  | @entry w author event written legal ih =>
    rw [lastPointer_after]
    rw [swaps_after] at wrote
    cases event with
    | looked other n prev =>
      have same : Swap.cell (swaps base key w.trace) = some count := by
        grind [Swap.cell_read, DataReport.swap]
      obtain ⟨job, last, pointed⟩ := ih same
      exact ⟨job, last, mem_after.mpr (Or.inl pointed)⟩
    | pointed other n =>
      grind [Swap.cell_write, mem_after, DataReport.swap, DataReport.pointedKey]
    | _ =>
      rw [DataReport.swap.eq_def, Option.toList_none, List.append_nil] at wrote
      obtain ⟨job, last, pointed⟩ := ih wrote
      exact ⟨job, last, mem_after.mpr (Or.inl pointed)⟩

end Last

end Phantom.AccountData
