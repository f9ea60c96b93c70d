import Phantom.Sync.Progress

namespace Phantom.Sync

open Phantom.Lib Phantom.Matrix Function

/-- The read has the event in its range and came after the event's row was written; unless it was cut
    at the limit, it returned the event. -/
def TimelineRead.Covers (read : TimelineRead) (count : Nat) (eventId : EventId) : Prop :=
  read.since < count ∧ count ≤ read.nextBatch ∧ (count, eventId) ∈ read.rows ∧
    (read.timeline.limited = false → (count, eventId) ∈ read.timeline.events)

def Server.Covered (server : Server) (count : Nat) (eventId : EventId) : Prop :=
  ∃ read ∈ server.reads, read.Covers count eventId

def TimelinePhase (log : CountedLog EventId) (Done : Nat → EventId → Prop) : SyncPhase → Prop
  | .idle => True
  | .looping _ since => log.CaughtUp Done since
  | .building _ since nextBatch none _ => log.CaughtUp Done since ∧ log.Settled nextBatch
  | .building _ _ nextBatch (some _) _ => log.CaughtUp Done nextBatch
  | .waiting _ nextBatch => log.CaughtUp Done nextBatch

structure Server.TimelineInv (server : Server) : Prop where
  token : server.timelineLog.CaughtUp server.Covered server.token
  phase : TimelinePhase server.timelineLog server.Covered server.sync

section Coverage

variable {server next : Server} {label : Label} {log after : CountedLog EventId} {Done More : Nat → EventId → Prop}

theorem TimelinePhase.advance {phase : SyncPhase} (holds : TimelinePhase log Done phase)
    (advances : log.Advances after) (more : ∀ count eventId, Done count eventId → More count eventId) :
    TimelinePhase after More phase := by
  cases phase with
  | idle => trivial
  | looping req since | waiting req nextBatch => exact CountedLog.CaughtUp.advance holds advances more
  | building req since nextBatch timeline toDevice =>
    cases timeline with
    | none => exact ⟨holds.1.advance advances more, holds.2.advance advances⟩
    | some timeline => exact CountedLog.CaughtUp.advance holds advances more

theorem covered_mono (more : ∀ read ∈ server.reads, read ∈ next.reads) (count : Nat) (eventId : EventId)
    (covered : server.Covered count eventId) : next.Covered count eventId := by
  obtain ⟨read, mem, rest⟩ := covered
  exact ⟨read, more read mem, rest⟩

theorem timelineInv_init : Server.init.TimelineInv := by
  refine ⟨⟨⟨Nat.le_refl 0, ?_⟩, nofun⟩, trivial⟩
  rintro n ⟨writer, held⟩
  cases held

theorem Server.TimelineInv.background (inv : server.TimelineInv) (same : server.Background next) :
    next.TimelineInv := by
  have more := @covered_mono server next fun _ mem => same.reads ▸ mem
  refine ⟨?_, ?_⟩
  · rw [same.token]
    exact inv.token.advance same.timeline more
  · rw [same.sync]
    exact inv.phase.advance same.timeline more

variable {count : Nat}

theorem covers_loadTimeline {pduidPdu : Nat → Option EventId} {since nextBatch limit : Nat} {eventId : EventId}
    (found : pduidPdu count = some eventId) (after : since < count) (within : count ≤ nextBatch) :
    TimelineRead.Covers ⟨since, nextBatch, ascending pduidPdu nextBatch,
      loadTimeline pduidPdu since nextBatch limit⟩ count eventId :=
  ⟨after, within, mem_ascending.mpr ⟨within, found⟩, loadTimeline_complete found after within⟩

theorem timelineInv_sync (inv : server.TimelineInv) (step : SyncStep server label next)
    (quiet : label = .sample → ∀ count, count ∉ server.timelineLog.drawn) : next.TimelineInv := by
  obtain ⟨token, phase⟩ := inv
  cases step with
  | request idle => exact ⟨token, token⟩
  | sampleAhead looping =>
    rw [looping] at phase
    have settled := CountedLog.settled_count (quiet rfl)
    exact ⟨token, CountedLog.CaughtUp.mono phase (Nat.min_le_left _ _), settled⟩
  | sampleBehind looping reached =>
    rw [looping] at phase
    exact ⟨token, CountedLog.CaughtUp.mono phase reached⟩
  | @loadTimeline request since nextBatch toDevice building =>
    rw [building] at phase
    obtain ⟨caught, settled⟩ := phase
    have more := @covered_mono server { server with
      reads := ⟨since, nextBatch, ascending server.pduidPdu nextBatch,
        loadTimeline server.pduidPdu since nextBatch request.timelineLimit⟩ :: server.reads }
      (fun _ mem => List.mem_cons_of_mem _ mem)
    refine ⟨token.advance (.refl _) more, caught.read settled more ?_⟩
    intro count eventId found after within
    exact ⟨_, List.mem_cons_self, covers_loadTimeline found after within⟩
  | @getToDeviceEvents request since nextBatch timeline building =>
    rw [building] at phase
    cases timeline with
    | none | some timeline => exact ⟨token, phase⟩
  | removeToDeviceEvent building held below => exact ⟨token, phase⟩
  | finishFull building | giveUp building =>
    rw [building] at phase
    exact ⟨phase, trivial⟩
  | finishEmpty building empty | wake building =>
    rw [building] at phase
    exact ⟨token, phase⟩
  | fail => exact ⟨token, trivial⟩

theorem timelineInv_step (inv : server.TimelineInv) (step : server.Step label next)
    (quiet : label = .sample → ∀ eventId count, server.appends eventId ≠ .counted count) : next.TimelineInv := by
  rcases step_cases step with background | sync
  · exact inv.background background
  · apply timelineInv_sync inv sync
    rintro sampled count ⟨eventId, drawn⟩
    exact quiet sampled eventId count (AppendPhase.of_drawn drawn)

/-- In a run that never samples the counter while an append holds a count without its row, every
    event at or below the token the client presents was in the range of a read made after its row. -/
theorem no_event_skipped {labels : List Label} {count : Nat} {eventId : EventId}
    (run : Run (fun server label next => Server.Step server label next ∧
      (label = .sample → ∀ eventId count, server.appends eventId ≠ .counted count)) .init labels server)
    (written : server.pduidPdu count = some eventId) (passed : count ≤ server.token) :
    ∃ read ∈ server.reads, read.Covers count eventId := by
  have inv := run.invariant Server.TimelineInv (fun _ _ _ inv step => timelineInv_step inv step.1 step.2) timelineInv_init
  exact inv.token.rows count eventId written passed

/-- The client and the loop are past the count, and no read has covered it. -/
structure Server.Missed (server : Server) (count : Nat) : Prop where
  counted : count ≤ server.count
  token : count ≤ server.token
  phase : match server.sync with
    | .idle => True
    | .looping _ since => count ≤ since
    | .building _ since nextBatch _ _ => count ≤ since ∧ count ≤ nextBatch
    | .waiting _ nextBatch => count ≤ nextBatch
  uncovered : ∀ eventId, ¬server.Covered count eventId

theorem missed_step (missed : server.Missed count) (step : server.Step label next) : next.Missed count := by
  obtain ⟨counted, token, phase, uncovered⟩ := missed
  rcases step_cases step with same | sync
  · refine ⟨Nat.le_trans counted same.timeline.count, ?_, ?_, ?_⟩
    · rw [same.token]
      exact token
    · rw [same.sync]
      exact phase
    · exact fun eventId covered => uncovered eventId (covered_mono (fun _ mem => same.reads ▸ mem) _ _ covered)
  · replace counted : count ≤ next.count := Nat.le_trans counted sync.advances.1
    cases sync with
    | request idle => exact ⟨counted, token, token, uncovered⟩
    | sampleAhead looping =>
      rw [looping] at phase
      exact ⟨counted, token, ⟨Nat.le_min.mpr ⟨phase, counted⟩, counted⟩, uncovered⟩
    | sampleBehind looping reached => exact ⟨counted, token, counted, uncovered⟩
    | loadTimeline building =>
      rw [building] at phase
      refine ⟨counted, token, phase, ?_⟩
      rintro eventId ⟨read, member, covers⟩
      rcases List.mem_cons.mp member with rfl | member
      · exact absurd (Nat.lt_of_le_of_lt phase.1 covers.1) (Nat.lt_irrefl _)
      · exact uncovered eventId ⟨read, member, covers⟩
    | getToDeviceEvents building | wake building =>
      rw [building] at phase
      exact ⟨counted, token, phase, uncovered⟩
    | removeToDeviceEvent building held below => exact ⟨counted, token, phase, uncovered⟩
    | finishFull building =>
      rw [building] at phase
      exact ⟨counted, phase.2, trivial, uncovered⟩
    | finishEmpty building empty =>
      rw [building] at phase
      exact ⟨counted, token, phase.2, uncovered⟩
    | giveUp waiting =>
      rw [waiting] at phase
      exact ⟨counted, phase, trivial, uncovered⟩
    | fail => exact ⟨counted, token, trivial, uncovered⟩

theorem missed_forever {labels : List Label} {later : Server} (missed : server.Missed count)
    (run : Run Server.Step server labels later) : ∀ eventId, ¬later.Covered count eventId :=
  (run.invariant (fun server : Server => server.Missed count) (fun _ _ _ missed step => missed_step missed step)
    missed).uncovered

end Coverage

namespace Sample

def hello : EventId := ⟨"$hello"⟩

def poll : Request := ⟨0, false, 10⟩

/-- The count is sampled between the draw of the event's count and the write of its row. -/
def skipping : List Label :=
  [.append hello, .append hello, .append hello, .request poll, .sample, .loadTimeline,
    .getToDeviceEvents, .finish false, .giveUp, .append hello]

theorem skipping_plays : (skipping.foldlM Server.step .init).isSome = true := by decide

def skipped : Server := (skipping.foldlM Server.step .init).get skipping_plays

theorem skipped_missed : skipped.Missed 2 := by
  refine ⟨by decide, by decide, trivial, ?_⟩
  rintro eventId ⟨read, mem, _, _, seen, _⟩
  have nothing : ∀ read ∈ skipped.reads, read.rows = [] := by decide
  rw [nothing read mem] at seen
  cases seen

theorem event_skipped : Run Server.Step .init skipping skipped ∧ skipped.pduidPdu 2 = some hello ∧
      ∀ labels later, Run Server.Step skipped labels later → ¬∃ read ∈ later.reads, read.Covers 2 hello := by
  refine ⟨Run.of_foldlM (fun _ _ _ step => step) (Option.some_get _).symm, by decide, ?_⟩
  rintro labels later run ⟨read, member, covers⟩
  exact missed_forever skipped_missed run hello ⟨read, member, covers⟩

def delivering : List Label :=
  [.append hello, .append hello, .append hello, .append hello, .append hello, .request poll, .sample,
    .loadTimeline, .getToDeviceEvents, .finish false]

theorem delivering_plays : (delivering.foldlM Server.step .init).isSome = true := by decide

def delivered : Server := (delivering.foldlM Server.step .init).get delivering_plays

theorem delivering_run : Run (fun server label next => Server.Step server label next ∧
      (label = .sample → ∀ eventId count, server.appends eventId ≠ .counted count)) .init delivering delivered := by
  refine .cons ⟨rfl, nofun⟩ (.cons ⟨rfl, nofun⟩ (.cons ⟨rfl, nofun⟩ (.cons ⟨rfl, nofun⟩ (.cons ⟨rfl, nofun⟩
    (.cons ⟨rfl, nofun⟩ (.cons ⟨rfl, fun _ => ?_⟩ (.cons ⟨rfl, nofun⟩ (.cons ⟨rfl, nofun⟩
      (.cons ⟨rfl, nofun⟩ (.nil _))))))))))
  intro eventId count
  by_cases same : eventId = hello
  · subst same
    simp [Server.setAppend, Server.init]
  · simp [Server.setAppend, Server.init, same]

theorem no_event_skipped_delivered : ∃ read ∈ delivered.reads, read.Covers 2 hello :=
  no_event_skipped delivering_run (by decide) (by decide)

end Sample

end Phantom.Sync
