import Phantom.SlidingSync.Steps

namespace Phantom.SlidingSync

open Phantom.Lib Phantom.Matrix Function

/-- Every event that the room had when it was collected, after its cursor and up to the position, is within the
    range of a payload of the room. -/
def Delivered (room : Collected) : Prop :=
  ∀ count eventId, room.rows count = some eventId → room.since < count → count ≤ room.upTo →
    ∃ range, room.range.payload = some range ∧ range.Has count

namespace World

def probedAt (world : World) (roomId : RoomId) : Option Nat :=
  match world.phase with
  | .selecting pass probes => if (probes roomId).timeline.isSome then some pass.conn.nextBatch else none
  | .collecting pass window results =>
    if window.any (fun room => decide (room.roomId = roomId)) &&
        !results.any (fun result => decide (result.1 = roomId)) then some pass.conn.nextBatch
    else none
  | _ => none

/-- No event after the position is stored before the newest count of its room is read, and none up to the
    position between that and the collection of the room. A room that the user is not joined to has no event
    after its cursor. -/
def timely (world : World) : Label → Bool
  | .probeTimeline roomId _ =>
    match world.phase with
    | .selecting pass _ =>
      (Sync.ascending (world.tables.pduidPdu roomId) world.tables.count).all
        (fun row => decide (row.1 ≤ pass.conn.nextBatch))
    | _ => true
  | .write (.appendRow roomId) =>
    match world.probedAt roomId, world.tables.inserting roomId with
    | some position, some (_, count) => decide (position < count)
    | _, _ => true
  | .collect roomId _ =>
    match world.phase with
    | .collecting pass window _ =>
      match window.find? (fun room => decide (room.roomId = roomId)) with
      | some room =>
        !membershipOnly room.membership ||
          (Sync.ascending (world.tables.pduidPdu roomId) pass.conn.nextBatch).all
            (fun row => decide (row.1 ≤ (pass.conn.room roomId).roomsince))
      | none => true
    | _ => true
  | _ => true

def TimelyStep (sha256 : List UInt8 → List UInt8) (world : World) (label : Label) (next : World) : Prop :=
  world.timely label = true ∧ world.Step sha256 label next

end World

def Covers (tables : Tables) (nextBatch : Nat) (roomId : RoomId) (probe : ActivityProbe) : Prop :=
  ∀ count eventId, tables.pduidPdu roomId count = some eventId → count ≤ nextBatch →
    probe.failed = true ∧ count ≤ nextBatch ∨ ∃ last, probe.count = some last ∧ count ≤ last ∧ last ≤ nextBatch

def Probed (tables : Tables) : Phase → Prop
  | .selecting pass probes => ∀ roomId probe, (probes roomId).timeline = some probe →
      Covers tables pass.conn.nextBatch roomId probe
  | .collecting pass window results =>
      (window.map WindowRoom.roomId).Nodup ∧
      (∀ room ∈ window, membershipOnly room.membership = false → (∀ result, (room.roomId, result) ∉ results) →
        ∀ count eventId, tables.pduidPdu room.roomId count = some eventId → count ≤ pass.conn.nextBatch →
          count ≤ room.payloadCount) ∧
      ∀ room ∈ World.completed results, Delivered room
  | _ => True

structure TimelyInv (world : World) : Prop where
  numbered : world.tables.Numbered
  probed : Probed world.tables world.phase
  delivered : ∀ move ∈ world.moves, Delivered move.toCollected

section Steps

variable {sha256 : List UInt8 → List UInt8} {world w next : World} {label : Label}
variable {roomId : RoomId} {pass : Pass} {windowRoom : WindowRoom} {results : List (RoomId × Option Collected)}
variable {window : List WindowRoom}

theorem covers_lastTimelineCount {nextBatch : Nat} (numbered : w.tables.Numbered)
    (none_later : ∀ count eventId, w.tables.pduidPdu roomId count = some eventId → count ≤ nextBatch)
    (readable : Bool) : Covers w.tables nextBatch roomId
      (activityProbe (if readable then some (w.tables.lastTimelineCount roomId) else none)) := by
  intro count eventId held covered
  cases readable with
  | false => exact Or.inl ⟨rfl, covered⟩
  | true =>
    obtain ⟨less, newest, last⟩ := le_lastTimelineCount numbered held
    exact Or.inr ⟨_, rfl, less, none_later _ newest last⟩

theorem all_le_of_ascending {t : Tables} {nextBatch bound : Nat}
    (all : (Sync.ascending (t.pduidPdu roomId) nextBatch).all (fun row => decide (row.1 ≤ bound)) = true)
    {count : Nat} {eventId : EventId} (held : t.pduidPdu roomId count = some eventId) (covered : count ≤ nextBatch) :
    count ≤ bound := by
  have inside := List.all_eq_true.mp all (count, eventId) (Sync.mem_ascending.mpr ⟨covered, held⟩)
  exact of_decide_eq_true inside

theorem probed_write {write : Write} {t : Tables} (written : w.tables.write write = some t)
    (timely : w.timely (.write write) = true) (probed : Probed w.tables w.phase) : Probed t w.phase := by
  have late : ∀ {roomId count eventId pos}, w.probedAt roomId = some pos →
      t.pduidPdu roomId count = some eventId → count ≤ pos → w.tables.pduidPdu roomId count = some eventId := by
    grind [write_row, World.timely]
  cases phase : w.phase with
  | selecting pass probes =>
    rw [phase] at probed
    intro roomId probe read count eventId held covered
    have at_ : w.probedAt roomId = some pass.conn.nextBatch := by
      simp [World.probedAt, phase, read]
    exact probed roomId probe read count eventId (late at_ held covered) covered
  | collecting pass window results =>
    rw [phase] at probed
    obtain ⟨nodup, fresh, delivered⟩ := probed
    refine ⟨nodup, ?_, delivered⟩
    intro room mem whole uncollected count eventId held covered
    have at_ : w.probedAt room.roomId = some pass.conn.nextBatch := by
      grind [World.probedAt]
    grind
  | idle | waiting pass | responded response => trivial

theorem probed_select {probes : RoomId → Probes} {candidates passing : List Candidate}
    (probed : Probed w.tables (.selecting pass probes))
    (ready : ∀ candidate ∈ candidates ++ passing, (probes candidate.roomId).ready candidate.membership = true) :
    Probed w.tables (w.select pass probes candidates passing).phase := by
  unfold World.select
  dsimp only
  split
  · refine ⟨nodup_collectWindow _, ?_, fun _ mem => absurd mem List.not_mem_nil⟩
    intro room mem whole _ count eventId held covered
    obtain ⟨candidate, listed, found, matched, sameRoom, sameMembership, samePayload⟩ :=
      (mem_window mem : Matched (trackRooms pass.conn (matchedRooms pass.conn probes candidates)) probes
        (candidates ++ passing) room).source
    obtain ⟨roomIs, membershipIs⟩ := matcher_roomId matched
    rw [sameMembership] at whole
    have read := ready candidate listed
    rw [Probes.ready, ← membershipIs, whole] at read
    obtain ⟨probe, read⟩ := Option.isSome_iff_exists.mp (Bool.and_eq_true_iff.mp read).1
    rw [sameRoom, roomIs] at held
    rw [samePayload]
    exact le_payloadCount matched whole read (probed candidate.roomId probe read count eventId held covered)
  · trivial

theorem delivered_collected {conn : Connection}
    (fresh : ∀ count eventId, w.tables.pduidPdu windowRoom.roomId count = some eventId →
      count ≤ conn.nextBatch → count ≤ windowRoom.payloadCount ∨ count ≤ (conn.room windowRoom.roomId).roomsince) :
    Delivered (w.collected sha256 conn windowRoom) := by
  intro count eventId held after covered
  cases built : (collectRoom sha256 conn windowRoom).payload with
  | none =>
    have stale := (collectRoom_stale built).1
    have since : (conn.room windowRoom.roomId).roomsince < count := after
    rcases fresh count eventId held covered with less | old <;> omega
  | some range =>
    refine ⟨range, built, ?_⟩
    rw [collectRoom_payload built]
    exact ⟨after, covered⟩

theorem mem_completed_cons {result : Option Collected} {room : Collected}
    (mem : room ∈ World.completed ((roomId, result) :: results)) :
    result = some room ∨ room ∈ World.completed results := by
  cases result with
  | none => exact Or.inr mem
  | some found =>
    rcases List.mem_cons.mp mem with same | mem
    · rw [same]
      exact Or.inl rfl
    · exact Or.inr mem

theorem probed_collect (sha256 : List UInt8 → List UInt8) {succeeds : Bool}
    (phase : w.phase = .collecting pass window results)
    (found : window.find? (fun room => decide (room.roomId = roomId)) = some windowRoom)
    (uncollected : ∀ result, (roomId, result) ∉ results)
    (timely : w.timely (.collect roomId succeeds) = true) (probed : Probed w.tables w.phase) :
    Probed w.tables (.collecting pass window
      ((roomId, if succeeds then some (w.collected sha256 pass.conn windowRoom) else none) :: results)) := by
  rw [phase] at probed
  obtain ⟨nodup, fresh, delivered⟩ := probed
  refine ⟨nodup, ?_, ?_⟩
  · grind
  · intro room listed
    rcases mem_completed_cons listed with made | listed
    · grind [delivered_collected, all_le_of_ascending, World.timely]
    · exact delivered room listed

theorem probed_unread (t : Tables) (pass : Pass) : Probed t (.selecting pass fun _ => .unread) := by
  intro roomId probe read
  cases read

theorem timelyInv_start (inv : TimelyInv w) (req : Request) (since : Nat) (conn : Connection) :
    TimelyInv (w.start req since conn) := by
  refine ⟨?_, probed_unread _ _, inv.delivered⟩
  grind [numbered_count, TimelyInv.numbered, World.start]

theorem timelyInv_finish
    (inv : TimelyInv w) (phase : w.phase = .collecting pass window results) (otherUpdates : Bool) :
    TimelyInv (w.finish pass (World.completed results) otherUpdates) := by
  have probed := inv.probed
  rw [phase] at probed
  have delivered : ∀ move ∈ (World.completed results).map (fun room => (⟨room, w.owed room.roomId⟩ : Move)) ++
      w.moves, Delivered move.toCollected := by
    intro move mem
    rcases List.mem_append.mp mem with mem | mem
    · obtain ⟨room, listed, same⟩ := List.mem_map.mp mem
      rw [← same]
      exact probed.2.2 room listed
    · exact inv.delivered move mem
  unfold World.finish
  dsimp only
  split <;> exact ⟨inv.numbered, trivial, delivered⟩

theorem timelyInv_step (inv : TimelyInv world) (step : world.TimelyStep sha256 label next) : TimelyInv next := by
  obtain ⟨timely, step⟩ := step
  cases step_moved step with
  | write written =>
    have probed := probed_write written timely inv.probed
    exact ⟨numbered_write inv.numbered written, probed, inv.delivered⟩
  | expire => exact ⟨inv.numbered, inv.probed, inv.delivered⟩
  | @request request restart phase =>
    rcases begin_cases world request restart with begun | same | ⟨stored, _, _, begun⟩
    · rw [begun]
      apply timelyInv_start
      exact ⟨inv.numbered, inv.probed, inv.delivered⟩
    · rw [same]
      exact inv
    · rw [begun]
      exact timelyInv_start inv _ _ _
  | @probeTimeline roomId readable pass probes phase =>
    have probed := inv.probed
    rw [phase] at probed
    refine ⟨inv.numbered, ?_, inv.delivered⟩
    intro other probe read
    by_cases same : other = roomId
    · subst same
      simp only [update_self, Option.some.injEq] at read
      rw [← read]
      apply covers_lastTimelineCount inv.numbered
      intro count eventId held
      simp only [World.timely, phase] at timely
      exact all_le_of_ascending timely held (inv.numbered.rows other count eventId held)
    · simp only [update_of_ne same] at read
      exact probed other probe read
  | @probeOther _ roomId pass probes change phase kept =>
    have probed := inv.probed
    rw [phase] at probed
    refine ⟨inv.numbered, ?_, inv.delivered⟩
    intro other probe read
    by_cases same : other = roomId
    · subst same
      simp only [update_self, kept] at read
      exact probed other probe read
    · simp only [update_of_ne same] at read
      exact probed other probe read
  | @select candidates passing pass probes phase ready =>
    have probed := inv.probed
    rw [phase] at probed
    have selected := probed_select probed ready
    unfold World.select at selected ⊢
    dsimp only at selected ⊢
    split at selected
    · next behind =>
      rw [if_pos behind]
      exact ⟨inv.numbered, selected, inv.delivered⟩
    · next reached =>
      rw [if_neg reached]
      exact ⟨inv.numbered, selected, inv.delivered⟩
  | collect phase found uncollected =>
    have probed := probed_collect sha256 phase found uncollected timely inv.probed
    exact ⟨inv.numbered, probed, inv.delivered⟩
  | finish phase => exact timelyInv_finish inv phase _
  | wake phase => exact ⟨inv.numbered, probed_unread _ _, inv.delivered⟩
  | giveUp phase | fail busy unanswered | receive phase | lose phase => exact ⟨inv.numbered, trivial, inv.delivered⟩

theorem timelyInv_init : TimelyInv .init := by
  refine ⟨⟨nofun, nofun⟩, trivial, ?_⟩
  intro move mem
  cases mem

/-- Whenever a room's cursor moved in a run of timely steps, every event that the room had when it was collected
    and that the cursor passed was within the range of a payload built in that pass. -/
theorem cursor_passes_delivered {labels : List Label} (run : Run (World.TimelyStep sha256) .init labels world) :
    ∀ move ∈ world.moves, Delivered move.toCollected :=
  (run.invariant TimelyInv (fun _ _ _ inv step => timelyInv_step inv step) timelyInv_init).delivered

end Steps

namespace Sample

def room : RoomId := ⟨"!room:here"⟩

def digest (_ : List UInt8) : List UInt8 := [0, 0, 0, 0, 0, 0, 0, 7]

def request : Request where
  waits := false
  lists := BTreeMap.empty.insert "all" ⟨[], ⟨10, []⟩, none⟩
  roomSubscriptions := []
  profiles := ⟨none, none⟩

def append (eventId : String) : List Label := [.write (.appendCount room ⟨eventId⟩), .write (.appendRow room)]

def probe : List Label :=
  [.probeTimeline room true, .probeNotification room, .select [⟨room, some .join, []⟩] []]

def collect : List Label := [.collect room true, .finish false]

def firstSync : List Label := append "$first" ++ [.request request false] ++ probe ++ collect ++ [.receive]

/-- The second event is stored before the position is sampled, the third before the newest count is read. -/
def lateProbe : List Label :=
  firstSync ++ append "$second" ++ [.request request false] ++ append "$third" ++ probe ++ collect ++
    [.giveUp, .receive]

def promptProbe : List Label :=
  firstSync ++ append "$second" ++ [.request request false] ++ probe ++ append "$third" ++ collect ++ [.receive]

/-- The newest count of the room is past the position, so the room counts as inactive and its cursor passes the
    second event without a payload. -/
theorem cursor_skips_event : ∃ world, Run (World.Step digest) .init lateProbe world ∧
    ∃ move ∈ world.moves, move.roomId = room ∧ move.rows 2 = some ⟨"$second"⟩ ∧ move.since = 1 ∧ move.upTo = 2 ∧
      move.range.payload = none :=
  Run.exists_of_foldlM _ (by decide +kernel) (fun _ _ _ step => step) fun _ _ skipped => skipped

theorem cursor_passes_delivered_prompt : ∃ world, Run (World.TimelyStep digest) .init promptProbe world ∧
    (∃ move ∈ world.moves, move.rows 2 = some ⟨"$second"⟩ ∧ move.since = 1 ∧ move.upTo = 2) ∧
    ∀ move ∈ world.moves, Delivered move.toCollected := by
  apply Run.exists_of_allowing (fun world => ∃ move ∈ world.moves, move.rows 2 = some ⟨"$second"⟩ ∧ move.since = 1 ∧
    move.upTo = 2) (by decide +kernel)
  intro world run moved
  exact ⟨moved, cursor_passes_delivered run⟩

end Sample

end Phantom.SlidingSync
