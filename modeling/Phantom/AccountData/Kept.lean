import Phantom.AccountData.IndexSwaps
import Phantom.AccountData.Readers

namespace Phantom.AccountData

open Phantom.Lib Phantom.Matrix

/-- A key has one row, the one its index entry leads to, with the data of the call that drew the highest
    count. -/
def Kept (key : Key) (world : DataWorld) : Prop :=
  ∃ job count data, (job, .drew key count data) ∈ world.trace ∧
    (∀ other number content, (other, .drew key number content) ∈ world.trace → number ≤ count) ∧
    world.store.roomusertypeRoomuserdataid key = some (key.withCount count) ∧
    ∀ number, world.store.roomuserdataidAccountdata (key.withCount number) = if number = count then some data else none

abbrev DataPool := Pool Update Unit DataReport Tables (Except DataError Unit)

def AllReturned (pool : DataPool) : Prop := ∀ job < pool.jobs.length, (pool.returned job).isSome

instance decidableAllReturned (pool : DataPool) : Decidable (AllReturned pool) :=
  inferInstanceAs (Decidable (∀ job < pool.jobs.length, (pool.returned job).isSome))

section Ended

variable {start : Tables} {world w : DataWorld} {key : Key} {job count n : ℕ} {data : Json}

def Ended (world : DataWorld) : Prop :=
  ∀ entry ∈ world.trace, ∃ key count data prev, world.own entry.1 = script key count data prev

theorem Ended.of_drew (ended : Ended w) (drew : (job, .drew key count data) ∈ w.trace) :
    ∃ prev, w.own job = script key count data prev := by
  obtain ⟨key', count', data', prev, own⟩ := ended _ drew
  have mine := World.mem_own.mpr drew
  rw [own] at mine
  have same : key = key' ∧ count = count' ∧ data = data' := by
    cases prev <;> simpa [script] using mine
  obtain ⟨rfl, rfl, rfl⟩ := same
  exact ⟨prev, own⟩

variable {prev : Option DataId}

theorem Ended.of_looked (ended : Ended w) (looked : (job, .looked key count prev) ∈ w.trace) :
    ∃ data, w.own job = script key count data prev := by
  obtain ⟨key', count', data, prev', own⟩ := ended _ looked
  have mine := World.mem_own.mpr looked
  rw [own] at mine
  have same : key = key' ∧ count = count' ∧ prev = prev' := by
    cases prev' <;> simpa [script] using mine
  obtain ⟨rfl, rfl, rfl⟩ := same
  exact ⟨data, own⟩

theorem Ended.sighted (ended : Ended w) (drew : (job, .drew key count data) ∈ w.trace) (base : ℕ) :
    ∃ found, (count, found) ∈ Swap.sights (swaps base key w.trace) := by
  obtain ⟨prev, own⟩ := ended.of_drew drew
  have looked : .looked key count prev ∈ w.own job := by simp [own, script]
  exact ⟨_, mem_sights.mpr ⟨job, prev, World.mem_own.mp looked, rfl⟩⟩

theorem Ended.complete (ended : Ended w) (base : ℕ) (key : Key) : Swap.Complete (swaps base key w.trace) := by
  rintro ⟨count, found⟩ sighted
  obtain ⟨job, prev, looked, _⟩ := mem_sights.mp sighted
  obtain ⟨data, own⟩ := ended.of_looked looked
  have pointed : .pointed key count ∈ w.own job := by simp [own, script]
  exact mem_writers.mpr ⟨job, World.mem_own.mp pointed⟩

theorem Ended.removed_of_looked (ended : Ended w) {dataId : DataId}
    (looked : (job, .looked key count (some dataId)) ∈ w.trace) : (job, .removed dataId) ∈ w.trace := by
  obtain ⟨data, own⟩ := ended.of_looked looked
  have removed : .removed dataId ∈ w.own job := by simp [own, script]
  exact World.mem_own.mp removed

theorem found_iff (tidy : start.Tidy) (written : dataJournal.Written start w)
    (looked : (job, .looked key n prev) ∈ w.trace) (new : start.count < count) :
    prev.bind (newer start.count) = some count ↔ prev = some (key.withCount count) := by
  rcases prev_of_looked written looked with initial | ⟨writer, found, newFound, points, _⟩
  · have nothing : prev.bind (newer start.count) = none := by
      cases prev with
      | none => rfl
      | some dataId =>
        obtain ⟨old, below, rfl⟩ := tidy.pointed key dataId initial.symm
        exact if_neg (Nat.not_lt.mpr below)
    grind [Tables.Tidy.pointed, withCount_injective]
  · grind [newer, Key.withCount]

section

variable (ended : Ended w) (tidy : start.Tidy) (written : dataJournal.Written start w)
include ended tidy written

theorem Ended.removed_iff (new : start.count < count) : (∃ job, (job, .removed (key.withCount count)) ∈ w.trace) ↔
      Swap.Replaced (swaps start.count key w.trace) count := by
  constructor
  · rintro ⟨job, removed⟩
    obtain ⟨other, n, looked, _⟩ := backed_of_written written removed
    have looked := World.mem_own.mp looked
    have same : other = key := by
      rcases prev_of_looked written looked with initial | ⟨writer, found, _, points, _⟩
      · grind [Tables.Tidy.pointed, withCount_injective]
      · exact (withCount_injective (Option.some.inj points)).1.symm
    subst same
    exact ⟨n, mem_sights.mpr ⟨job, _, looked, ((found_iff tidy written looked new).mpr rfl).symm⟩⟩
  · rintro ⟨n, sighted⟩
    obtain ⟨job, prev, looked, found⟩ := mem_sights.mp sighted
    have points := (found_iff tidy written looked new).mp found.symm
    exact ⟨job, ended.removed_of_looked (points ▸ looked)⟩

theorem Ended.row_of_drew (drew : (job, .drew key count data) ∈ w.trace) {content : Json} :
    w.store.roomuserdataidAccountdata (key.withCount count) = some content ↔
      content = data ∧ ¬ Swap.Replaced (swaps start.count key w.trace) count := by
  have between := (drawn_between written).2 _ _ _ _ drew
  obtain ⟨prev, own⟩ := ended.of_drew drew
  have initial : start.roomuserdataidAccountdata (key.withCount count) ≠ some content := by
    intro present
    have points := tidy.rows key count (by simp [present])
    grind [Tables.Tidy.pointed, withCount_injective]
  have stored_iff : (∃ job, (job, .stored key count content) ∈ w.trace) ↔ content = data := by
    constructor
    · rintro ⟨other, stored⟩
      have mine := mem_own_of_count written drew stored rfl
      rw [own] at mine
      cases prev <;> simpa [script] using mine
    · rintro rfl
      have stored : .stored key count content ∈ w.own job := by simp [own, script]
      exact ⟨job, World.mem_own.mp stored⟩
  grind [row_iff, Ended.removed_iff]

theorem Ended.old_row (drew : (job, .drew key count data) ∈ w.trace) (old : n ≤ start.count) :
    w.store.roomuserdataidAccountdata (key.withCount n) = none := by
  cases row : w.store.roomuserdataidAccountdata (key.withCount n) with
  | none => rfl
  | some content =>
    obtain ⟨origin, unremoved⟩ := (row_iff tidy written key n content).mp row
    have initial : start.roomuserdataidAccountdata (key.withCount n) = some content := by
      rcases origin with initial | ⟨other, stored⟩
      · exact initial
      · have drewToo := World.mem_own.mp (backed_of_written written stored)
        have between := (drawn_between written).2 _ _ _ _ drewToo
        omega
    have points := tidy.rows key n (by simp [initial])
    obtain ⟨_, sighted⟩ := ended.sighted drew start.count
    obtain ⟨first, sightedFirst⟩ := (lawful_swaps tidy written key).exists_first (List.ne_nil_of_mem sighted)
    obtain ⟨reader, found, lookedFirst, nothing⟩ := mem_sights.mp sightedFirst
    have same : found = some (key.withCount n) := by
      grind [prev_of_looked, newer, Key.withCount]
    exact absurd (ended.removed_of_looked (same ▸ lookedFirst)) (unremoved reader)

end

theorem row_of_undrawn (tidy : start.Tidy) (written : dataJournal.Written start w) (new : start.count < n)
    (undrawn : ∀ job data, (job, .drew key n data) ∉ w.trace) :
    w.store.roomuserdataidAccountdata (key.withCount n) = none := by
  cases row : w.store.roomuserdataidAccountdata (key.withCount n) with
  | none => rfl
  | some content =>
    rcases ((row_iff tidy written key n content).mp row).1 with initial | ⟨job, stored⟩
    · have points := tidy.rows key n (by simp [initial])
      grind [Tables.Tidy.pointed, withCount_injective]
    · exact absurd (World.mem_own.mp (backed_of_written written stored)) (undrawn job content)

theorem Ended.kept_iff (ended : Ended w) (tidy : start.Tidy) (written : dataJournal.Written start w)
    (drew : (job, .drew key count data) ∈ w.trace) : Kept key w ↔ Swap.Apart (swaps start.count key w.trace) ∧
      lastPointer key w.trace = lastDrawer key w.trace := by
  have lawful := lawful_swaps tidy written key
  have complete := ended.complete start.count key
  obtain ⟨prev, own⟩ := ended.of_drew drew
  have pointed : .pointed key count ∈ w.own job := by simp [own, script]
  have wrote : count ∈ Swap.writers (swaps start.count key w.trace) := mem_writers.mpr ⟨job, World.mem_own.mp pointed⟩
  rcases indexed_of_written written key with ⟨_, unwritten⟩ | ⟨last, new, points, cell⟩
  · exact absurd unwritten (Swap.cell_ne_none wrote)
  · obtain ⟨pointer, lastPointed, pointedLast⟩ := lastPointer_of_cell written cell
    obtain ⟨content, drewLast⟩ := drew_of_pointed written pointedLast
    rw [lastPointed, ← lawful.replaced_iff_apart complete, cell]
    constructor
    · rintro ⟨winner, n, winning, drewWinning, highest, index, rows⟩
      obtain ⟨_, same⟩ := withCount_injective (Option.some.inj (index.symm.trans points))
      subst same
      have lastDrew := (highest_iff written drewLast).mp highest
      refine ⟨?_, lastDrew.symm⟩
      rintro ⟨reader, found⟩ sighted
      obtain ⟨readerJob, seen, looked, _⟩ := mem_sights.mp sighted
      obtain ⟨read, drewRead⟩ := drew_of_looked written looked
      by_cases replaced : Swap.Replaced (swaps start.count key w.trace) reader
      · exact Or.inr replaced
      · left
        have row := (ended.row_of_drew tidy written drewRead).mpr ⟨rfl, replaced⟩
        grind
    · rintro ⟨replaced, lastDrew⟩
      have highest := (highest_iff written drewLast).mpr lastDrew.symm
      refine ⟨pointer, last, content, drewLast, highest, points, ?_⟩
      intro n
      split
      · grind [Ended.row_of_drew, Swap.Lawful.not_replaced_of_last]
      · next ne =>
        rcases Nat.lt_or_ge start.count n with newer | old
        · by_cases drawn : ∃ job data, (job, .drew key n data) ∈ w.trace
          · obtain ⟨drawer, drawn, drewNumber⟩ := drawn
            obtain ⟨found, sighted⟩ := ended.sighted drewNumber start.count
            rw [Option.eq_none_iff_forall_ne_some]
            grind [Ended.row_of_drew]
          · grind [row_of_undrawn]
        · exact ended.old_row tidy written drew old

end Ended

section Runs

variable {start : Tables} {pool : DataPool} {turns : List (Turn Update Unit)}

/-- Once all calls are over, a key that was updated has its one row exactly if no call read its index entry
    between the read and the write of another, and the last call to write it was the last to draw. -/
theorem account_data_kept_iff (tidy : start.Tidy)
    (run : Run (Pool.Step Concurrent.update fun _ _ => True) (Pool.idle start) turns pool)
    (returned : AllReturned pool) {job : ℕ} {call : Update} {result : Except DataError Unit}
    (accepted : pool.returned job = some (call, result)) (complete : Complete call.data) :
    Kept call.key pool.world ↔ Swap.Apart (swaps start.count call.key pool.world.trace) ∧
      lastPointer call.key pool.world.trace = lastDrawer call.key pool.world.trace := by
  have sound : Protocol.Sound (dataJournal.protocol start) (fun job call _ => Finished job call) pool := by
    apply Protocol.Sound.run _ run (.idle Journal.Written.blank)
    intro job call world _ unreported
    exact update_spec call (Journal.own_eq_nil unreported)
  have ended : Ended pool.world := by
    intro entry member
    obtain ⟨⟨other, answer⟩, returnedOther⟩ := Option.isSome_iff_exists.mp (returned _ (sound.reported entry member))
    have finished : Finished entry.1 other pool.world := sound.returned returnedOther
    rw [Finished] at finished
    split at finished
    · grind
    · have mine := World.mem_own.mpr member
      rw [finished] at mine
      cases mine
  have finished : Finished job call pool.world := sound.returned accepted
  rw [Finished, if_pos complete] at finished
  obtain ⟨count, prev, own⟩ := finished
  have drew : .drew call.key count call.data ∈ pool.world.own job := by simp [own, script]
  exact ended.kept_iff tidy sound.inv (World.mem_own.mp drew)

end Runs

namespace Sample

theorem tidy_empty : Tables.empty.Tidy := ⟨nofun, fun _ _ present => absurd rfl present⟩

def tags (name : String) : Json := .object [("type", .string "m.tag"), ("content", .object [(name, .null)])]

def tagKey : Key := ⟨some room, alice, "m.tag"⟩

def favourite : Update := ⟨tagKey, tags "m.favourite"⟩

def low : Update := ⟨tagKey, tags "m.lowpriority"⟩

def overlapping : List (Turn Update Unit) :=
  [.arrive favourite, .arrive low, .take 0 (), .take 0 (), .take 0 (), .take 1 (), .take 1 (), .take 1 (),
    .take 0 (), .take 1 ()]

theorem two_rows_remain :
    ∃ pool, Run (Pool.Step Concurrent.update fun _ _ => True) (Pool.idle .empty) overlapping pool ∧
      AllReturned pool ∧ (pool.world.store.roomuserdataidAccountdata (tagKey.withCount 1)).isSome ∧
      (pool.world.store.roomuserdataidAccountdata (tagKey.withCount 2)).isSome ∧
      pool.world.store.roomusertypeRoomuserdataid tagKey = some (tagKey.withCount 2) ∧ ¬ Kept tagKey pool.world := by
  apply Pool.exists_run_of_play (fun pool => AllReturned pool ∧
    (pool.world.store.roomuserdataidAccountdata (tagKey.withCount 1)).isSome ∧
    (pool.world.store.roomuserdataidAccountdata (tagKey.withCount 2)).isSome ∧
    pool.world.store.roomusertypeRoomuserdataid tagKey = some (tagKey.withCount 2)) (by decide +kernel)
  rintro pool run ⟨returned, first, second, index⟩
  refine ⟨returned, first, second, index, ?_⟩
  rintro ⟨job, count, data, _, _, points, rows⟩
  obtain ⟨_, same⟩ := withCount_injective (Option.some.inj (points.symm.trans index))
  rw [rows 1, same] at first
  cases first

/-- The second call starts before the first is over, and reads the index after the first has written it. -/
def staggered : List (Turn Update Unit) :=
  [.arrive favourite, .arrive low, .take 0 (), .take 1 (), .take 0 (), .take 0 (), .take 0 (), .take 1 (), .take 1 (),
    .take 1 (), .take 1 ()]

theorem account_data_kept_staggered :
    ∃ pool, Run (Pool.Step Concurrent.update fun _ _ => True) (Pool.idle .empty) staggered pool ∧
      AllReturned pool ∧ Kept tagKey pool.world := by
  apply Pool.exists_run_of_play (fun pool => AllReturned pool ∧
    (pool.returned 0).any (fun returned => returned.1.key = tagKey ∧ Complete returned.1.data) ∧
    Swap.Apart (swaps 0 tagKey pool.world.trace) ∧
    lastPointer tagKey pool.world.trace = lastDrawer tagKey pool.world.trace) (by decide +kernel)
  rintro pool run ⟨returned, first, apart, last⟩
  obtain ⟨⟨call, result⟩, accepted, shape⟩ := (Option.any_eq_true _ _).mp first
  obtain ⟨key, complete⟩ := of_decide_eq_true shape
  have kept_iff := account_data_kept_iff tidy_empty run returned accepted complete
  rw [key] at kept_iff
  exact ⟨returned, kept_iff.mpr ⟨apart, last⟩⟩

end Sample

end Phantom.AccountData
