import Phantom.Sending.Flights

namespace Phantom.Sending

open Phantom.Lib

variable {Edu : Type} {config cfg : Config} {worker after : Worker Edu} {label : Label Edu} {dest : Destination}

/-- A message for a destination without a status comes while no row of it is active. -/
def clean (worker : Worker Edu) : Label Edu → Bool
  | .receive _ _ => worker.channel.head?.all fun msg =>
      (worker.outgoing msg.dest).status.isSome || (worker.outgoing msg.dest).activeRequests.isEmpty
  | _ => true

/-- `startup_netburst_keep` is negative. -/
def keepsRows : Label Edu → Bool
  | .restart _ keep => keep < 0
  | _ => true

def Covered (outgoing : Outgoing Edu) : Prop :=
  ∀ items ∈ outgoing.futures, ∀ row, outgoing.active.get row.1 = some row.2 → .queued row ∈ items

section Covered

variable {outgoing : Outgoing Edu} {items : Transaction Edu} {id : Bytes}

theorem covered_of_idle (idle : outgoing.futures = []) : Covered outgoing := by
  intro items mem
  rw [idle] at mem
  exact absurd mem List.not_mem_nil

theorem covered_of_flight {before : List (Transaction Edu)} (idle : before = [])
    (flight : outgoing.futures = before ++ [items])
    (covers : ∀ row, outgoing.active.get row.1 = some row.2 → .queued row ∈ items) : Covered outgoing := by
  intro other mem
  grind

variable {item : Item Edu}

theorem active_markAsActive {row : Row Edu} (none : outgoing.activeRequests = [])
    (found : (outgoing.markAsActive [item]).active.get row.1 = some row.2) : item = .queued row := by
  have absent : outgoing.active.get row.1 ≠ some row.2 := by
    rw [Ne, ← Outgoing.mem_activeRequests, none]
    exact List.not_mem_nil
  cases item with
  | queued other =>
    rcases BTreeMap.get_insert found with ⟨key, value⟩ | ⟨_, before⟩
    · rw [Prod.ext key value]
    · exact absurd before absent
  | selected buf | flush => exact absurd found absent

variable {next : Outgoing Edu} {phase : Phase}

theorem covered_moved (moved : Moved cfg worker dest label phase next) (cleared : clean worker label = true)
    (sound : Sound worker.phase (worker.outgoing dest)) (covered : Covered (worker.outgoing dest)) :
    Covered next := by
  cases moved with
  | same | queue => exact covered
  | receive working first own requested =>
    cases requested with
    | begun free buffers educount =>
      subst own
      rename_i msg rest
      have none : (worker.outgoing msg.dest).activeRequests = [] := by
        simpa [clean, first, free] using cleared
      refine covered_of_flight (sound.idle_of_free working free) rfl ?_
      intro row found
      rw [active_markAsActive none found]
      exact List.mem_cons_self
    | retried failed rows =>
      refine covered_of_flight (sound.idle_of_failed working failed) rfl ?_
      intro row found
      exact Outgoing.mem_activeRequests.mpr found
    | dropped failed => exact covered_of_idle (sound.idle_of_failed working failed)
    | same => exact covered
  | ok working held answered =>
    have idle := sound.futures_complete held
    cases answered with
    | emptied => exact covered_of_idle idle
    | dequeued rows nonempty listed active gone left status futures =>
      refine covered_of_flight idle futures ?_
      grind
  | err working held told | finishOk finishing held | finishErr finishing held =>
    exact covered_of_idle (sound.futures_complete held)
  | stopped => exact covered_of_idle rfl
  | burst =>
    refine covered_of_flight rfl rfl ?_
    intro row found
    exact Outgoing.mem_activeRequests.mpr found

def Stored (outgoing : Outgoing Edu) (id : Bytes) : Prop := outgoing.queued.get id ≠ none ∨ outgoing.active.get id ≠ none

def PduRow (outgoing : Outgoing Edu) (id : Bytes) : Prop :=
  outgoing.queued.get id = some none ∨ outgoing.active.get id = some none

instance decidableStored : Decidable (Stored outgoing id) := inferInstanceAs (Decidable (_ ∨ _))

instance decidablePduRow [DecidableEq Edu] : Decidable (PduRow outgoing id) := inferInstanceAs (Decidable (_ ∨ _))

theorem PduRow.stored (row : PduRow outgoing id) : Stored outgoing id :=
  row.imp (fun found => by simp [found]) fun found => by simp [found]

theorem stored_begun (stored : Stored outgoing id) : Stored (outgoing.markAsActive [item]) id := by
  cases item with
  | queued row =>
    show (outgoing.queued.erase row.1).get id ≠ none ∨ (outgoing.active.insert row.1 row.2).get id ≠ none
    rw [BTreeMap.get_erase_eq, BTreeMap.get_insert_eq]
    by_cases same : id = row.1
    · grind
    · rw [if_neg same, if_neg same]
      exact stored
  | selected buf | flush => exact stored

theorem stored_moved (moved : Moved cfg worker dest label phase next) (keeps : keepsRows label = true)
    (stored : Stored (worker.outgoing dest) id) : Stored next id ∨ (worker.outgoing dest).queued.get id = none ∧
      ∃ items ∈ (worker.outgoing dest).futures, items ∈ next.acknowledged := by
  cases moved with
  | same | err | finishErr => exact Or.inl stored
  | queue =>
    rename_i row
    refine Or.inl (stored.imp_left ?_)
    intro queued
    show ((worker.outgoing dest).queued.insert row.1 row.2).get id ≠ none
    grind [BTreeMap.get_insert_eq]
  | receive working first own requested =>
    cases requested with
    | begun free buffers educount => exact Or.inl (stored_begun stored)
    | retried | dropped | same => exact Or.inl stored
  | ok working held answered =>
    by_cases unqueued : (worker.outgoing dest).queued.get id = none
    · refine Or.inr ⟨unqueued, _, List.mem_of_getElem? held, ?_⟩
      cases answered with
      | emptied => exact List.mem_append_right _ List.mem_cons_self
      | dequeued rows nonempty listed active gone left status futures sent requested acknowledged =>
        rw [acknowledged]
        exact List.mem_append_right _ List.mem_cons_self
    · left
      cases answered with
      | emptied rows =>
        obtain ⟨value, found⟩ := Option.ne_none_iff_exists'.mp unqueued
        have mem : (id, value) ∈ (worker.outgoing dest).queued.entries := BTreeMap.get_eq_some.mp found
        have none : (worker.outgoing dest).queued.entries = [] := rows
        grind
      | dequeued rows nonempty listed active gone left =>
        by_cases taken : id ∈ rows.map Prod.fst
        · obtain ⟨⟨_, value⟩, mem, rfl⟩ := List.mem_map.mp taken
          have found := (active _ value).mpr mem
          exact Or.inr (by simp [found])
        · exact Or.inl (by rw [left id taken]; exact unqueued)
  | finishOk finishing held =>
    by_cases unqueued : (worker.outgoing dest).queued.get id = none
    · exact Or.inr ⟨unqueued, _, List.mem_of_getElem? held, List.mem_append_right _ List.mem_cons_self⟩
    · exact Or.inl (Or.inl unqueued)
  | stopped kept =>
    rw [Outgoing.keptRows, if_pos (of_decide_eq_true keeps), or_self] at kept
    subst kept
    exact Or.inl stored
  | burst kept =>
    rw [Outgoing.keptRows, if_pos (of_decide_eq_true keeps)] at kept
    subst kept
    exact Or.inl stored

end Covered

/-- In runs in which no message for a destination without a status finds rows of it active, a PDU leaves the two
    tables only once a transaction with it was acknowledged. -/
theorem rows_removed_acknowledged {start : Worker Edu} {labels : List (Label Edu)}
    (idle : ∀ dest, (start.outgoing dest).futures = [])
    (run : Run (fun worker label after => (clean worker label && keepsRows label) = true ∧
    worker.next config label = some after)
      start labels worker)
    (stepped : worker.next config label = some after) (keeps : keepsRows label = true) (dest : Destination) (id : Bytes)
    (stored : PduRow (worker.outgoing dest) id) (removed : ¬ Stored (after.outgoing dest) id) :
    ∃ items ∈ (after.outgoing dest).acknowledged, .pdu id ∈ items.map Item.event := by
  have invariant : Sound worker.phase (worker.outgoing dest) ∧ Covered (worker.outgoing dest) := by
    refine run.invariant (fun worker => Sound worker.phase (worker.outgoing dest) ∧ Covered (worker.outgoing dest)) ?_
      ⟨.of_idle (idle dest), covered_of_idle (idle dest)⟩
    rintro worker label after ⟨sound, covered⟩ ⟨allowed, stepped⟩
    have moved := next_moved stepped dest
    grind [sound_moved, covered_moved]
  rcases stored_moved (next_moved stepped dest) keeps stored.stored with kept | ⟨unqueued, items, flight, acknowledged⟩
  · exact absurd kept removed
  · have active : (worker.outgoing dest).active.get id = some none :=
      stored.resolve_left (by rw [unqueued]; exact (Option.some_ne_none _).symm)
    have member := invariant.2 items flight (id, none) active
    exact ⟨items, acknowledged, List.mem_map.mpr ⟨_, member, rfl⟩⟩

namespace Sample

def restarted : List (Label String) :=
  [.queue far hello, .receive 0 ([], 0), .restart false (-1), .queue far goodbye, .receive 1 ([], 0)]

/-- The row of the first transaction is still active when the second one is acknowledged. -/
theorem unsent_row_removed : ∃ worker after : Worker String,
    Run (fun worker label after => keepsRows label = true ∧
    worker.next network label = some after) .empty restarted worker ∧
    worker.next network (.respond far 0 true 2) = some after ∧ PduRow (worker.outgoing far) hello.1 ∧
    ¬ Stored (after.outgoing far) hello.1 ∧
    ∀ items ∈ (after.outgoing far).acknowledged, .pdu hello.1 ∉ items.map Item.event := by
  simp only [exists_and_left]
  apply Run.exists_of_allowing (fun worker => (worker.next network (.respond far 0 true 2)).any fun after =>
    decide (PduRow (worker.outgoing far) hello.1 ∧ ¬ Stored (after.outgoing far) hello.1 ∧
      ∀ items ∈ (after.outgoing far).acknowledged, .pdu hello.1 ∉ items.map Item.event)) (by decide +kernel)
  intro worker run found
  obtain ⟨after, stepped, holds⟩ := (Option.any_eq_true _ _).mp found
  exact ⟨after, stepped, of_decide_eq_true holds⟩

def delivered : List (Label String) :=
  [.queue far hello, .receive 0 ([], 0), .restart true (-1), .respond far 0 false 1, .queue far goodbye,
  .receive 700 ([], 0)]

theorem rows_removed_acknowledged_retry : ∃ worker after : Worker String,
    Run (fun worker label after => (clean worker label && keepsRows label) = true ∧
    worker.next network label = some after)
      .empty delivered worker ∧
    worker.next network (.respond far 0 true 701) = some after ∧ PduRow (worker.outgoing far) hello.1 ∧
    ¬ Stored (after.outgoing far) hello.1 ∧
    ∃ items ∈ (after.outgoing far).acknowledged, .pdu hello.1 ∈ items.map Item.event := by
  simp only [exists_and_left]
  apply Run.exists_of_allowing (fun worker => (worker.next network (.respond far 0 true 701)).any fun after =>
    decide (PduRow (worker.outgoing far) hello.1 ∧ ¬ Stored (after.outgoing far) hello.1)) (by decide +kernel)
  intro worker run found
  obtain ⟨after, stepped, holds⟩ := (Option.any_eq_true _ _).mp found
  obtain ⟨stored, removed⟩ := of_decide_eq_true holds
  exact ⟨after, stepped, stored, removed,
    rows_removed_acknowledged (fun _ => rfl) run stepped rfl far hello.1 stored removed⟩

end Sample

end Phantom.Sending
