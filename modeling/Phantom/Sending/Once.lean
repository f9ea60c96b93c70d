import Phantom.Sending.Flights

namespace Phantom.Sending

open Phantom.Lib

variable {Edu : Type} {config cfg : Config} {worker : Worker Edu} {label : Label Edu} {dest : Destination}

/-- A message for a destination without a status comes while its row is still in the queue. -/
def timely (worker : Worker Edu) : Label Edu → Bool
  | .receive _ _ => worker.channel.head?.all fun msg => (worker.outgoing msg.dest).status.isSome ||
      msg.item.row.all fun row => ((worker.outgoing msg.dest).queued.get row.1).isSome
  | _ => true

def contains (id : Bytes) (items : Transaction Edu) : Bool := items.any fun item => item.row.any fun row => row.1 = id

def copies (outgoing : Outgoing Edu) (id : Bytes) : ℕ :=
  (outgoing.queued.get id).isSome.toNat + (outgoing.active.get id).isSome.toNat +
    outgoing.acknowledged.countP (contains id)

section Copies

variable {outgoing next : Outgoing Edu} {items : Transaction Edu} {phase : Phase} {id : Bytes}

theorem get_of_contains (holds : contains id items = true) : ∃ value, .queued (id, value) ∈ items := by
  obtain ⟨item, mem, found⟩ := List.any_eq_true.mp holds
  cases item with
  | queued row =>
    have same : row.1 = id := of_decide_eq_true found
    exact ⟨row.2, by rw [← same]; exact mem⟩
  | selected buf | flush => cases found

theorem copies_queueRequest (row : Row Edu) (enough : copies outgoing id ≤ outgoing.requested.count id) :
    copies (outgoing.queueRequest row) id ≤ (outgoing.queueRequest row).requested.count id := by
  unfold copies at enough ⊢
  show ((outgoing.queued.insert row.1 row.2).get id).isSome.toNat + _ + _ ≤ (outgoing.requested ++ [row.1]).count id
  rw [BTreeMap.get_insert_eq, List.count_append, List.count_singleton]
  by_cases same : id = row.1
  · rw [if_pos same, if_pos (by rw [same]; exact beq_self_eq_true _)]
    show 1 + (outgoing.active.get id).isSome.toNat + outgoing.acknowledged.countP (contains id) ≤ _
    omega
  · rw [if_neg same]
    exact Nat.le_add_right_of_le enough

theorem copies_markAsActive {item : Item Edu}
    (queued : item.row.all (fun row => (outgoing.queued.get row.1).isSome) = true) :
    ((outgoing.markAsActive [item]).queued.get id).isSome.toNat +
    ((outgoing.markAsActive [item]).active.get id).isSome.toNat ≤
      (outgoing.queued.get id).isSome.toNat + (outgoing.active.get id).isSome.toNat := by
  cases item with
  | queued row =>
    show ((outgoing.queued.erase row.1).get id).isSome.toNat +
      ((outgoing.active.insert row.1 row.2).get id).isSome.toNat ≤ _
    rw [BTreeMap.get_erase_eq, BTreeMap.get_insert_eq]
    by_cases same : id = row.1
    · have present : (outgoing.queued.get row.1).isSome = true := queued
      grind
    · rw [if_neg same, if_neg same]
  | selected buf | flush => exact Nat.le_refl _

theorem rows_answered (id : Bytes) (answered : outgoing.Answered next) :
    (next.queued.get id).isSome.toNat + (next.active.get id).isSome.toNat ≤ (outgoing.queued.get id).isSome.toNat := by
  cases answered with
  | emptied => exact Nat.le_refl _
  | dequeued rows nonempty listed active gone left =>
    grind [BTreeMap.get_eq_some, BTreeMap.get]

theorem acknowledged_le (id : Bytes) (flight : items ∈ outgoing.futures) (sound : Sound phase outgoing) :
    (outgoing.acknowledged ++ [items]).countP (contains id) ≤
      (outgoing.active.get id).isSome.toNat + outgoing.acknowledged.countP (contains id) := by
  rw [List.countP_append, List.countP_singleton]
  split
  · rename_i holds
    obtain ⟨value, mem⟩ := get_of_contains holds
    rw [sound.carried items flight _ mem]
    exact Nat.le_of_eq (Nat.add_comm _ _)
  · exact Nat.le_add_left _ _

theorem get_keptRows (id : Bytes) (keep : ℤ) (active : BTreeMap Bytes (Option Edu)) :
    ((Outgoing.keptRows keep active).get id).isSome.toNat ≤ (active.get id).isSome.toNat := by
  grind [Outgoing.keptRows, BTreeMap.get]

theorem copies_moved (moved : Moved cfg worker dest label phase next) (fits : timely worker label = true)
    (sound : Sound worker.phase (worker.outgoing dest))
    (enough : copies (worker.outgoing dest) id ≤ (worker.outgoing dest).requested.count id) :
    copies next id ≤ next.requested.count id := by
  cases moved with
  | same | err | finishErr => exact enough
  | queue => exact copies_queueRequest _ enough
  | receive working first own requested =>
    cases requested with
    | begun free buffers educount =>
      subst own
      rename_i msg rest
      have queued : msg.item.row.all (fun row => ((worker.outgoing msg.dest).queued.get row.1).isSome) = true := by
        grind [timely]
      exact (Nat.add_le_add_right (copies_markAsActive queued) _).trans enough
    | retried | dropped | same => exact enough
  | ok working held answered =>
    have acknowledged := acknowledged_le id (List.mem_of_getElem? held) sound
    have rows := rows_answered id answered
    unfold copies at enough ⊢
    cases answered with
    | emptied => exact (Nat.add_le_add rows acknowledged).trans (by rw [← Nat.add_assoc]; exact enough)
    | dequeued _ _ _ _ _ _ _ _ _ requested acked =>
      rw [requested, acked]
      exact (Nat.add_le_add rows acknowledged).trans (by rw [← Nat.add_assoc]; exact enough)
  | finishOk finishing held =>
    have acknowledged := acknowledged_le id (List.mem_of_getElem? held) sound
    exact (Nat.add_le_add (Nat.le_refl _) acknowledged).trans (by rw [← Nat.add_assoc]; exact enough)
  | stopped kept =>
    rcases kept with rfl | rfl
    · exact enough
    · exact (Nat.add_le_add_right (Nat.add_le_add_left (get_keptRows id _ _) _) _).trans enough
  | burst kept =>
    subst kept
    exact (Nat.add_le_add_right (Nat.add_le_add_left (get_keptRows id _ _) _) _).trans enough

end Copies

/-- In runs in which a message that begins a transaction still has its row in the queue, an event is in no more
    acknowledged transactions than it was queued. -/
theorem delivered_once {labels : List (Label Edu)}
    (run : Run (fun worker label after => timely worker label = true ∧
    worker.next config label = some after) .empty labels worker)
    (dest : Destination) (id : Bytes) (once : (worker.outgoing dest).requested.count id ≤ 1) :
    (worker.outgoing dest).acknowledged.countP (contains id) ≤ 1 := by
  have invariant : Sound worker.phase (worker.outgoing dest) ∧
      copies (worker.outgoing dest) id ≤ (worker.outgoing dest).requested.count id := by
    refine run.invariant (fun worker => Sound worker.phase (worker.outgoing dest) ∧
      copies (worker.outgoing dest) id ≤ (worker.outgoing dest).requested.count id) ?_ ⟨.of_idle rfl, Nat.le_refl 0⟩
    rintro worker label after ⟨sound, enough⟩ ⟨fits, stepped⟩
    have moved := next_moved stepped dest
    grind [sound_moved, copies_moved]
  exact (Nat.le_add_left _ _).trans (invariant.2.trans once)

namespace Sample

def overtaken : List (Label String) :=
  [.queue far hello, .receive 0 ([], 0), .queue far goodbye, .respond far 0 true 1, .respond far 0 true 2,
    .receive 3 ([], 0), .respond far 0 true 4]

theorem delivered_twice : ∃ worker : Worker String,
    Run (fun worker label after => worker.next network label = some after) .empty overtaken worker ∧
    (worker.outgoing far).requested.count goodbye.1 = 1 ∧
    (worker.outgoing far).acknowledged.countP (contains goodbye.1) = 2 :=
  Run.exists_of_foldlM _ (by decide +kernel) (fun _ _ _ stepped => stepped) fun _ _ twice => twice

def inOrder : List (Label String) :=
  [.queue far hello, .receive 0 ([], 0), .queue far goodbye, .receive 1 ([], 0), .respond far 0 true 2,
  .respond far 0 true 3]

theorem delivered_once_in_order : ∃ worker : Worker String,
    Run (fun worker label after => timely worker label = true ∧
    worker.next network label = some after) .empty inOrder worker ∧
    (worker.outgoing far).acknowledged.countP (contains goodbye.1) ≠ 0 ∧
    (worker.outgoing far).acknowledged.countP (contains goodbye.1) ≤ 1 := by
  apply Run.exists_of_allowing (fun worker => (worker.outgoing far).requested.count goodbye.1 ≤ 1 ∧
    (worker.outgoing far).acknowledged.countP (contains goodbye.1) ≠ 0) (by decide +kernel)
  rintro worker run ⟨once, delivered⟩
  exact ⟨delivered, delivered_once run far goodbye.1 once⟩

end Sample

end Phantom.Sending
