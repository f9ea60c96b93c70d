import Phantom.Sync.Progress

namespace Phantom.Sync

open Phantom.Lib Phantom.Matrix Function

def Server.Delivered (server : Server) (count message : Nat) : Prop :=
  ∃ response ∈ server.responses, (count, message) ∈ response.toDevice

def MessagePhase (log : CountedLog Nat) (Done : Nat → Nat → Prop) : SyncPhase → Prop
  | .idle => True
  | .looping _ since => log.CaughtUp Done since
  | .building _ since nextBatch _ none => log.CaughtUp Done since ∧ log.Settled nextBatch
  | .building _ since nextBatch _ (some toDevice) => log.CaughtUp Done since ∧
      log.CaughtUp (fun count message => Done count message ∨ (count, message) ∈ toDevice) nextBatch
  | .waiting _ nextBatch => log.CaughtUp Done nextBatch

structure Server.MessageInv (server : Server) : Prop where
  token : server.messageLog.CaughtUp server.Delivered server.token
  phase : MessagePhase server.messageLog server.Delivered server.sync

/-- While a request is on its way, the client has presented the token of every response it got. -/
structure Server.Acknowledges (server : Server) : Prop where
  pending : ∀ response ∈ server.responses, response ∈ server.acknowledged ∨ response.nextBatch = server.token
  requested : server.sync ≠ .idle → ∀ response ∈ server.responses, response ∈ server.acknowledged

section Removal

variable {server next : Server} {label : Label} {log after : CountedLog Nat} {Done More : Nat → Nat → Prop}
variable {nextBatch : Nat} {toDevice : List (Nat × Nat)}

theorem MessagePhase.advance {phase : SyncPhase} (holds : MessagePhase log Done phase)
    (advances : log.Advances after) (more : ∀ count message, Done count message → More count message) :
    MessagePhase after More phase := by
  cases phase with
  | idle => trivial
  | looping req since | waiting req nextBatch => exact CountedLog.CaughtUp.advance holds advances more
  | building req since nextBatch timeline toDevice =>
    cases toDevice with
    | none => exact ⟨holds.1.advance advances more, holds.2.advance advances⟩
    | some toDevice =>
      exact ⟨holds.1.advance advances more, holds.2.advance advances fun count message =>
        Or.imp_left (more count message)⟩

theorem messageInv_init : Server.init.MessageInv := by
  refine ⟨⟨⟨Nat.le_refl 0, ?_⟩, nofun⟩, trivial⟩
  rintro n ⟨writer, held⟩
  cases held

theorem delivered_mono (more : ∀ response ∈ server.responses, response ∈ next.responses) (count message : Nat)
    (delivered : server.Delivered count message) : next.Delivered count message := by
  obtain ⟨response, mem, rest⟩ := delivered
  exact ⟨response, more response mem, rest⟩

theorem Server.MessageInv.background (inv : server.MessageInv) (same : server.Background next) : next.MessageInv := by
  have more := @delivered_mono server next fun _ mem => same.responses ▸ mem
  refine ⟨?_, ?_⟩
  · rw [same.token]
    exact inv.token.advance same.messages more
  · rw [same.sync]
    exact inv.phase.advance same.messages more

theorem messageInv_respond (caught : server.messageLog.CaughtUp
      (fun count message => server.Delivered count message ∨ (count, message) ∈ toDevice) nextBatch) :
    (server.respond nextBatch toDevice).MessageInv := by
  refine ⟨caught.advance (.refl _) ?_, trivial⟩
  rintro count message (before | read)
  · exact delivered_mono (fun _ mem => List.mem_cons_of_mem _ mem) count message before
  · exact ⟨_, List.mem_cons_self, read⟩

theorem messageInv_sync (inv : server.MessageInv) (step : SyncStep server label next)
    (quiet : label = .sample → ∀ count, count ∉ server.messageLog.drawn) : next.MessageInv := by
  have advances := step.advances.2
  obtain ⟨token, phase⟩ := inv
  cases step with
  | request idle => exact ⟨token, token⟩
  | sampleAhead looping =>
    rw [looping] at phase
    have settled := CountedLog.settled_count (quiet rfl)
    exact ⟨token, CountedLog.CaughtUp.mono phase (Nat.min_le_left _ _), settled⟩
  | sampleBehind looping reached =>
    rw [looping] at phase
    exact ⟨token, CountedLog.CaughtUp.mono phase reached⟩
  | @loadTimeline request since nextBatch toDevice building =>
    rw [building] at phase
    cases toDevice with
    | none | some toDevice => exact ⟨token, phase⟩
  | getToDeviceEvents building =>
    rw [building] at phase
    obtain ⟨caught, settled⟩ := phase
    refine ⟨token, caught, caught.read settled (fun _ _ => Or.inl) ?_⟩
    intro count message found after within
    exact Or.inr (mem_getToDeviceEvents.mpr ⟨after, within, found⟩)
  | removeToDeviceEvent building held below =>
    exact ⟨token.advance advances fun _ _ => id, phase.advance advances fun _ _ => id⟩
  | finishFull building =>
    rw [building] at phase
    exact messageInv_respond phase.2
  | finishEmpty building empty =>
    rw [building] at phase
    refine ⟨token, phase.2.advance (.refl _) ?_⟩
    rintro count message (before | read)
    · exact before
    · rw [empty] at read
      cases read
  | wake waiting =>
    rw [waiting] at phase
    exact ⟨token, phase⟩
  | giveUp waiting =>
    rw [waiting] at phase
    exact messageInv_respond (CountedLog.CaughtUp.advance phase (.refl _) fun _ _ => Or.inl)
  | fail => exact ⟨token, trivial⟩

theorem messageInv_step (inv : server.MessageInv) (step : server.Step label next)
    (quiet : label = .sample → ∀ message count, server.adds message ≠ .counted count) : next.MessageInv := by
  rcases step_cases step with background | sync
  · exact inv.background background
  · apply messageInv_sync inv sync
    rintro sampled count ⟨message, drawn⟩
    exact quiet sampled message count (AddPhase.of_drawn drawn)

theorem acknowledges_init : Server.init.Acknowledges := by
  refine ⟨?_, ?_⟩
  · intro response mem
    cases mem
  · intro _ response mem
    cases mem

theorem Server.Acknowledges.respond (inv : server.Acknowledges) (busy : server.sync ≠ .idle) :
    (server.respond nextBatch toDevice).Acknowledges := by
  refine ⟨?_, fun idle => absurd rfl idle⟩
  intro response mem
  rcases List.mem_cons.mp mem with rfl | mem
  · exact Or.inr rfl
  · exact Or.inl (inv.requested busy response mem)

theorem acknowledges_step (inv : server.Acknowledges) (step : server.Step label next) : next.Acknowledges := by
  rcases step_cases step with same | sync
  · refine ⟨?_, ?_⟩
    · rw [same.responses, same.acknowledged, same.token]
      exact inv.pending
    · rw [same.responses, same.acknowledged, same.sync]
      exact inv.requested
  · cases sync with
    | request idle =>
      have presented : ∀ response ∈ server.responses, response ∈ server.responses.filter
          (fun response => response.nextBatch = server.token) ++ server.acknowledged := by
        grind [Server.Acknowledges.pending]
      exact ⟨fun response member => Or.inl (presented response member), fun _ => presented⟩
    | sampleAhead phase | sampleBehind phase reached | wake phase | loadTimeline phase | getToDeviceEvents phase
    | finishEmpty phase empty =>
      exact ⟨inv.pending, fun _ => inv.requested (by rw [phase]; nofun)⟩
    | removeToDeviceEvent phase held below => exact ⟨inv.pending, inv.requested⟩
    | finishFull phase | giveUp phase => exact inv.respond (by rw [phase]; nofun)
    | fail => exact ⟨inv.pending, fun idle => absurd rfl idle⟩

/-- Every removed message was in a response whose `next_batch` the client has presented since. -/
def Server.RemovedDelivered (server : Server) : Prop :=
  ∀ count message, (count, message) ∈ server.removed →
    ∃ response ∈ server.acknowledged, (count, message) ∈ response.toDevice

theorem delivered_of_held {req : Request} {since count message : Nat}
    {timeline : Option Timeline} {toDevice : Option (List (Nat × Nat))} (inv : server.MessageInv)
    (acknowledges : server.Acknowledges) (phase : server.sync = .building req since nextBatch timeline toDevice)
    (held : server.todeviceidEvents count = some message) (below : count ≤ since) :
    ∃ response ∈ server.acknowledged, (count, message) ∈ response.toDevice := by
  have caught : server.messageLog.CaughtUp server.Delivered since := by
    have holds := inv.phase
    rw [phase] at holds
    cases toDevice with
    | none | some toDevice => exact holds.1
  obtain ⟨response, mem, read⟩ := caught.rows count message held below
  exact ⟨response, acknowledges.requested (by rw [phase]; nofun) response mem, read⟩

theorem removedDelivered_step (inv : server.MessageInv) (acknowledges : server.Acknowledges)
    (delivered : server.RemovedDelivered) (step : server.Step label next) : next.RemovedDelivered := by
  rcases step_cases step with same | sync
  · rw [Server.RemovedDelivered, same.removed, same.acknowledged]
    exact delivered
  · cases sync with
    | request idle =>
      intro count message removed
      obtain ⟨response, member, read⟩ := delivered count message removed
      exact ⟨response, List.mem_append_right _ member, read⟩
    | removeToDeviceEvent phase held below =>
      have found := delivered_of_held inv acknowledges phase held below
      intro count message removed
      rcases List.mem_cons.mp removed with this | before
      · cases this
        exact found
      · exact delivered count message before
    | _ => exact delivered

structure Server.RemovalInv (server : Server) : Prop where
  messages : server.MessageInv
  acknowledges : server.Acknowledges
  delivered : server.RemovedDelivered

/-- In a run that never samples the counter while a call for the device holds a count without its row,
    a message is removed only after it was in a response that the client has acknowledged. -/
theorem no_message_lost {labels : List Label} {count message : Nat}
    (run : Run (fun server label next => Server.Step server label next ∧
      (label = .sample → ∀ message count, server.adds message ≠ .counted count)) .init labels server)
    (removed : (count, message) ∈ server.removed) :
    ∃ response ∈ server.acknowledged, (count, message) ∈ response.toDevice := by
  have inv := run.invariant Server.RemovalInv (fun _ _ _ inv step =>
      ⟨messageInv_step inv.messages step.1 step.2, acknowledges_step inv.acknowledges step.1,
        removedDelivered_step inv.messages inv.acknowledges inv.delivered step.1⟩)
    ⟨messageInv_init, acknowledges_init, fun _ _ member => absurd member List.not_mem_nil⟩
  exact inv.delivered count message removed

end Removal

namespace Sample

def quickPoll : Request := ⟨0, false, 10⟩

/-- The count is sampled between the draw of the message's count and the write of its row, and the next
    request removes the row. -/
def losing : List Label :=
  [.add 0, .request quickPoll, .sample, .loadTimeline, .getToDeviceEvents, .finish false, .giveUp, .add 0,
    .nextCount, .request quickPoll, .sample, .removeToDeviceEvent 1]

theorem losing_plays : (losing.foldlM Server.step .init).isSome = true := by decide

def lost : Server := (losing.foldlM Server.step .init).get losing_plays

theorem message_lost : Run Server.Step .init losing lost ∧ (1, 0) ∈ lost.removed ∧
      ∀ response ∈ lost.responses, (1, 0) ∉ response.toDevice :=
  ⟨Run.of_foldlM (fun _ _ _ step => step) (Option.some_get _).symm, by decide, by decide⟩

def receiving : List Label :=
  [.add 0, .add 0, .request quickPoll, .sample, .loadTimeline, .getToDeviceEvents, .finish false,
    .nextCount, .request quickPoll, .sample, .removeToDeviceEvent 1]

theorem receiving_plays : (receiving.foldlM Server.step .init).isSome = true := by decide

def received : Server := (receiving.foldlM Server.step .init).get receiving_plays

theorem settled_adds (message count : Nat) :
    update (update (fun _ => AddPhase.waiting) 0 (.counted 1)) 0 (.done 1) message ≠ .counted count := by
  grind

theorem receiving_run : Run (fun server label next => Server.Step server label next ∧
      (label = .sample → ∀ message count, server.adds message ≠ .counted count)) .init receiving received :=
  .cons ⟨rfl, nofun⟩ (.cons ⟨rfl, nofun⟩ (.cons ⟨rfl, nofun⟩ (.cons ⟨rfl, fun _ => settled_adds⟩
    (.cons ⟨rfl, nofun⟩ (.cons ⟨rfl, nofun⟩ (.cons ⟨rfl, nofun⟩ (.cons ⟨rfl, nofun⟩ (.cons ⟨rfl, nofun⟩
      (.cons ⟨rfl, fun _ => settled_adds⟩ (.cons ⟨rfl, nofun⟩ (.nil _)))))))))))

theorem no_message_lost_received : ∃ response ∈ received.acknowledged, (1, 0) ∈ response.toDevice :=
  no_message_lost receiving_run (by decide)

end Sample

end Phantom.Sync
