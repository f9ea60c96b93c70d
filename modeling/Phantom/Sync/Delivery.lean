import Phantom.Sync.Progress

namespace Phantom.Sync

open Phantom.Lib

/-- The messages to the device that the client got, in that order. -/
def Server.inbox (server : Server) : List (Nat × Nat) := server.responses.reverse.flatMap Response.toDevice

/-- The messages are in the order of their counts, none twice, and between the two positions. -/
def Between (since nextBatch : Nat) (messages : List (Nat × Nat)) : Prop :=
  messages.Pairwise (fun earlier later => earlier.1 < later.1) ∧
    ∀ message ∈ messages, since < message.1 ∧ message.1 ≤ nextBatch

/-- The loop is at or past the token of the client. -/
def Forward (token count : Nat) : SyncPhase → Prop
  | .idle => True
  | .looping _ since => token ≤ since
  | .building _ since nextBatch _ toDevice => token ≤ since ∧ since ≤ nextBatch ∧ nextBatch ≤ count ∧
      ∀ messages ∈ toDevice, Between since nextBatch messages
  | .waiting _ nextBatch => token ≤ nextBatch ∧ nextBatch ≤ count

structure Server.InOrder (server : Server) : Prop where
  counted : server.token ≤ server.count
  inbox : Between 0 server.token server.inbox
  phase : Forward server.token server.count server.sync

section Delivery

variable {server next : Server} {label : Label} {since nextBatch : Nat} {messages : List (Nat × Nat)}

theorem Server.InOrder.respond (inOrder : server.InOrder) (start : server.token ≤ since) (stop : since ≤ nextBatch)
    (bound : nextBatch ≤ server.count) (read : Between since nextBatch messages) :
    (server.respond nextBatch messages).InOrder := by
  have got : (server.respond nextBatch messages).inbox = server.inbox ++ messages := by
    simp [Server.inbox, Server.respond]
  refine ⟨bound, ⟨?_, ?_⟩, trivial⟩
  · rw [got]
    refine List.pairwise_append.mpr ⟨inOrder.inbox.1, read.1, ?_⟩
    intro earlier before later new
    exact Nat.lt_of_le_of_lt ((inOrder.inbox.2 earlier before).2.trans start) (read.2 later new).1
  · intro message mem
    rw [got, List.mem_append] at mem
    rcases mem with before | new
    · have old := inOrder.inbox.2 message before
      exact ⟨old.1, old.2.trans (start.trans stop)⟩
    · have inside := read.2 message new
      exact ⟨Nat.zero_lt_of_lt inside.1, inside.2⟩

theorem inOrder_step (inOrder : server.InOrder) (step : server.Step label next) : next.InOrder := by
  have ⟨counted, inbox, phase⟩ := inOrder
  rcases step_cases step with same | sync
  · have more : server.count ≤ next.count := same.timeline.count
    refine ⟨same.token ▸ counted.trans more, ?_, ?_⟩
    · rw [Server.inbox, same.responses, same.token]
      exact inbox
    · rw [same.token, same.sync]
      -- the counter only grows, so the loop's positions stay within it
      revert phase
      cases server.sync <;> grind [Forward]
  · cases sync with
    -- the messages are read from past `since` on, and the client has none past its token
    | getToDeviceEvents building =>
      rw [building] at phase
      obtain ⟨start, stop, bound, _⟩ := phase
      refine ⟨counted, inbox, start, stop, bound, ?_⟩
      rintro messages ⟨⟩
      refine ⟨(pairwise_ascending _ _).filter _, ?_⟩
      rintro ⟨count, message⟩ mem
      obtain ⟨after, within, _⟩ := mem_getToDeviceEvents.mp mem
      exact ⟨after, within⟩
    | finishFull building =>
      rw [building] at phase
      obtain ⟨start, stop, bound, read⟩ := phase
      exact inOrder.respond start stop bound (read _ rfl)
    | giveUp waiting =>
      rw [waiting] at phase
      exact inOrder.respond phase.1 (Nat.le_refl _) phase.2 ⟨.nil, nofun⟩
    | _ => exact ⟨counted, inbox, by grind [Forward]⟩

/-- However appends, messages, removals and syncs interleave, and whatever requests fail and are made again, the
    client gets no message to the device twice, and gets them in the order of their counts. -/
theorem messages_delivered_once {labels : List Label} (run : Run Server.Step .init labels server) :
    server.inbox.Pairwise (fun earlier later => earlier.1 < later.1) :=
  (run.invariant Server.InOrder (fun _ _ _ inOrder step => inOrder_step inOrder step)
    ⟨Nat.le_refl _, ⟨.nil, nofun⟩, trivial⟩).inbox.1

end Delivery

namespace Sample

def pass : List Label := [.request ⟨0, false, 10⟩, .sample, .loadTimeline, .getToDeviceEvents]

/-- A request fails with the message read, and the next one brings it with another message. -/
theorem messages_delivered_once_retried : ∃ server, Run Server.Step .init
    ([.add 0, .add 0] ++ pass ++ [.fail, .add 1, .add 1] ++ pass ++ [.finish false]) server ∧
    server.inbox = [(1, 0), (2, 1)] ∧ server.inbox.Pairwise (fun earlier later => earlier.1 < later.1) :=
  Run.exists_of_foldlM (fun server => server.inbox = [(1, 0), (2, 1)]) (by decide) (fun _ _ _ step => step)
    (fun _ run got => ⟨got, messages_delivered_once run⟩)

end Sample

end Phantom.Sync
