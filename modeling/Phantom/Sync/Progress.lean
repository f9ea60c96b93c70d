import Phantom.Lib.CountedLog
import Phantom.Sync.Server

namespace Phantom.Sync

open Phantom.Lib Phantom.Matrix Function

def AppendPhase.drawn : AppendPhase → Option Nat
  | .counted count => some count
  | _ => none

def AddPhase.drawn : AddPhase → Option Nat
  | .counted count => some count
  | _ => none

variable {count : Nat}

theorem AppendPhase.of_drawn {phase : AppendPhase} (drawn : phase.drawn = some count) : phase = .counted count := by
  cases phase with
  | counted other =>
    cases drawn
    rfl
  | _ => cases drawn

theorem AddPhase.of_drawn {phase : AddPhase} (drawn : phase.drawn = some count) : phase = .counted count := by
  cases phase with
  | counted other =>
    cases drawn
    rfl
  | _ => cases drawn

namespace Server

def timelineLog (server : Server) : CountedLog EventId :=
  .ofWriters server.count AppendPhase.drawn server.appends server.pduidPdu

def messageLog (server : Server) : CountedLog Nat :=
  .ofWriters server.count AddPhase.drawn server.adds server.todeviceidEvents

/-- A step of a writer: the sync loop is where it was, and the logs advance. -/
structure Background (server next : Server) : Prop where
  sync : next.sync = server.sync
  token : next.token = server.token
  reads : next.reads = server.reads
  responses : next.responses = server.responses
  acknowledged : next.acknowledged = server.acknowledged
  removed : next.removed = server.removed
  timeline : server.timelineLog.Advances next.timelineLog
  messages : server.messageLog.Advances next.messageLog

end Server

section Writers

variable {server next : Server} {label : Label} {eventId : EventId} {message : Nat}

theorem update_eq_some {ρ : Type} {rows : Nat → Option ρ} {count n : Nat} {row other : ρ}
    (present : update rows count (some row) n = some other) : rows n = some other ∨ n = count := by
  grind

theorem background_append (step : server.Step (.append eventId) next) : server.Background next := by
  simp only [Server.Step, Server.step] at step
  cases phase : server.appends eventId with
  | waiting =>
    rw [phase, Server.appendStep] at step
    split at step
    · cases step
      exact ⟨rfl, rfl, rfl, rfl, rfl, rfl, CountedLog.advances_move (Nat.le_refl _) (fun _ drew => by cases drew)
        (fun _ _ => Or.inl), .refl _⟩
    · cases step
  | locked =>
    rw [phase] at step
    cases step
    exact ⟨rfl, rfl, rfl, rfl, rfl, rfl, CountedLog.advances_move (Nat.le_succ _) (fun _ drew => by cases drew)
      (fun _ _ => Or.inl), CountedLog.advances_keep (Nat.le_succ _) fun _ _ => id⟩
  | receiptCounted =>
    rw [phase] at step
    cases step
    refine ⟨rfl, rfl, rfl, rfl, rfl, rfl, CountedLog.advances_move (Nat.le_succ _) ?_ fun _ _ => Or.inl,
      CountedLog.advances_keep (Nat.le_succ _) fun _ _ => id⟩
    intro n drew
    cases drew
    exact Or.inr (Nat.lt_succ_self _)
  | counted count =>
    rw [phase] at step
    cases step
    refine ⟨rfl, rfl, rfl, rfl, rfl, rfl, CountedLog.advances_move (Nat.le_refl _) (fun _ drew => by cases drew) ?_,
      .refl _⟩
    intro n row present
    rw [phase]
    exact (update_eq_some present).imp_right fun same => by rw [same]; rfl
  | written count =>
    rw [phase] at step
    cases step
    exact ⟨rfl, rfl, rfl, rfl, rfl, rfl, CountedLog.advances_move (Nat.le_refl _) (fun _ drew => by cases drew)
      (fun _ _ => Or.inl), .refl _⟩
  | done count =>
    rw [phase] at step
    cases step

theorem background_add (step : server.Step (.add message) next) : server.Background next := by
  simp only [Server.Step, Server.step] at step
  cases phase : server.adds message with
  | waiting =>
    rw [phase] at step
    cases step
    refine ⟨rfl, rfl, rfl, rfl, rfl, rfl, CountedLog.advances_keep (Nat.le_succ _) fun _ _ => id,
      CountedLog.advances_move (Nat.le_succ _) ?_ fun _ _ => Or.inl⟩
    intro n drew
    cases drew
    exact Or.inr (Nat.lt_succ_self _)
  | counted count =>
    rw [phase] at step
    cases step
    refine ⟨rfl, rfl, rfl, rfl, rfl, rfl, .refl _,
      CountedLog.advances_move (Nat.le_refl _) (fun _ drew => by cases drew) ?_⟩
    intro n row present
    rw [phase]
    exact (update_eq_some present).imp_right fun same => by rw [same]; rfl
  | done count =>
    rw [phase] at step
    cases step

inductive SyncStep (server : Server) : Label → Server → Prop where
  | request {request : Request} (phase : server.sync = .idle) :
      SyncStep server (.request request) { server with
        sync := .looping request server.token
        acknowledged := server.responses.filter (fun response => response.nextBatch = server.token) ++
          server.acknowledged }
  | sampleAhead {request : Request} {since : Nat} (phase : server.sync = .looping request since) :
      SyncStep server .sample { server with
        sync := .building request (min since server.count) server.count none none }
  | sampleBehind {request : Request} {since : Nat} (phase : server.sync = .looping request since)
      (reached : server.count ≤ since) :
      SyncStep server .sample { server with sync := .waiting request server.count }
  | loadTimeline {request : Request} {since nextBatch : Nat} {toDevice : Option (List (Nat × Nat))}
      (phase : server.sync = .building request since nextBatch none toDevice) :
      SyncStep server .loadTimeline { server with
        sync := .building request since nextBatch
          (some (Sync.loadTimeline server.pduidPdu since nextBatch request.timelineLimit)) toDevice
        reads := ⟨since, nextBatch, ascending server.pduidPdu nextBatch,
          Sync.loadTimeline server.pduidPdu since nextBatch request.timelineLimit⟩ :: server.reads }
  | getToDeviceEvents {request : Request} {since nextBatch : Nat} {timeline : Option Timeline}
      (phase : server.sync = .building request since nextBatch timeline none) :
      SyncStep server .getToDeviceEvents { server with
        sync := .building request since nextBatch timeline
          (some (Sync.getToDeviceEvents server.todeviceidEvents since nextBatch)) }
  | removeToDeviceEvent {request : Request} {since nextBatch count message : Nat}
      {timeline : Option Timeline} {toDevice : Option (List (Nat × Nat))}
      (phase : server.sync = .building request since nextBatch timeline toDevice)
      (held : server.todeviceidEvents count = some message) (below : count ≤ since) :
      SyncStep server (.removeToDeviceEvent count) { server with
        todeviceidEvents := Function.update server.todeviceidEvents count none
        removed := (count, message) :: server.removed }
  | finishFull {request : Request} {since nextBatch : Nat} {timeline : Timeline}
      {toDevice : List (Nat × Nat)} {otherUpdates : Bool}
      (phase : server.sync = .building request since nextBatch (some timeline) (some toDevice)) :
      SyncStep server (.finish otherUpdates) (server.respond nextBatch toDevice)
  | finishEmpty {request : Request} {since nextBatch : Nat} {timeline : Timeline}
      {toDevice : List (Nat × Nat)} {otherUpdates : Bool}
      (phase : server.sync = .building request since nextBatch (some timeline) (some toDevice))
      (empty : toDevice = []) :
      SyncStep server (.finish otherUpdates) { server with sync := .waiting request nextBatch }
  | wake {request : Request} {nextBatch : Nat} (phase : server.sync = .waiting request nextBatch) :
      SyncStep server .wake { server with sync := .looping request nextBatch }
  | giveUp {request : Request} {nextBatch : Nat} (phase : server.sync = .waiting request nextBatch) :
      SyncStep server .giveUp (server.respond nextBatch [])
  | fail : SyncStep server .fail { server with sync := .idle }

theorem step_cases (step : server.Step label next) : server.Background next ∨ SyncStep server label next := by
  cases label with
  | append eventId => exact Or.inl (background_append step)
  | add message => exact Or.inl (background_add step)
  | nextCount =>
    cases step
    exact Or.inl ⟨rfl, rfl, rfl, rfl, rfl, rfl, CountedLog.advances_keep (Nat.le_succ _) fun _ _ => id,
      CountedLog.advances_keep (Nat.le_succ _) fun _ _ => id⟩
  | fail =>
    cases step
    exact Or.inr .fail
  | removeToDeviceEvent count =>
    simp only [Server.Step, Server.step] at step
    split at step
    · next phase held =>
      split at step
      · next below =>
        cases step
        exact Or.inr (.removeToDeviceEvent phase held below)
      · cases step
    · cases step
  | request _ | loadTimeline | getToDeviceEvents | giveUp =>
    simp only [Server.Step, Server.step] at step
    split at step
    · next phase =>
      cases step
      exact Or.inr (by constructor; exact phase)
    · cases step
  | sample =>
    simp only [Server.Step, Server.step] at step
    split at step
    · next phase =>
      split at step
      · cases step
        exact Or.inr (.sampleAhead phase)
      · next reached =>
        cases step
        refine Or.inr (.sampleBehind phase ?_)
        grind
    · cases step
  | finish otherUpdates =>
    simp only [Server.Step, Server.step] at step
    split at step
    · next toDevice phase =>
      split at step
      · cases step
        exact Or.inr (.finishFull phase)
      · next quiet =>
        cases step
        have empty : toDevice = [] := by
          grind
        exact Or.inr (.finishEmpty phase empty)
    · cases step
  | wake =>
    simp only [Server.Step, Server.step] at step
    split at step
    · next phase =>
      split at step
      · cases step
        exact Or.inr (.wake phase)
      · cases step
    · cases step

theorem SyncStep.advances (step : SyncStep server label next) :
    server.count ≤ next.count ∧ server.messageLog.Advances next.messageLog := by
  cases step with
  | removeToDeviceEvent phase held below =>
    refine ⟨Nat.le_refl _, CountedLog.advances_keep (Nat.le_refl _) ?_⟩
    grind
  | _ => exact ⟨Nat.le_refl _, .refl _⟩

end Writers

end Phantom.Sync
