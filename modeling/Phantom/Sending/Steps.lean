import Phantom.Sending.Worker

namespace Phantom.Sending

open Phantom.Lib

variable {Edu : Type} {config cfg : Config}

namespace Outgoing

variable {outgoing : Outgoing Edu} {row : Row Edu} {rows : List (Row Edu)} {id : Bytes}

theorem mem_activeRequests : .queued row ∈ outgoing.activeRequests ↔ outgoing.active.get row.1 = some row.2 := by
  grind [BTreeMap.get_eq_some, activeRequests]

theorem filterMap_queued : (rows.map Item.queued).filterMap Item.row = rows := by
  rw [List.filterMap_map]
  exact List.filterMap_some

inductive Requested (outgoing : Outgoing Edu) (config : Config) (now : ℕ) (selected : List Edu × ℕ) (msg : Msg Edu) :
    Outgoing Edu → Prop where
  | begun (free : outgoing.status = none) (buffers : List Edu) (educount : ℕ) :
    outgoing.Requested config now selected msg
      ({ outgoing.markAsActive [msg.item] with status := some .running, educount := educount }.sendEvents
        (msg.item :: buffers.map .selected))
  | retried {tries time : ℕ} (failed : outgoing.status = some (.failed tries time))
    (rows : outgoing.activeRequests ≠ []) :
    outgoing.Requested config now selected msg
      ({ outgoing with status := some (.retrying tries) }.sendEvents outgoing.activeRequests)
  | dropped {tries time : ℕ} (failed : outgoing.status = some (.failed tries time)) (rows : outgoing.activeRequests = [])
      (retry : (selectEventsCurrent config msg.dest msg.revive now outgoing.status).2.1 = true) :
    outgoing.Requested config now selected msg { outgoing with status := none }
  | same (busy : outgoing.status ≠ none)
      (stays : (selectEventsCurrent config msg.dest msg.revive now outgoing.status).2.1 = false) :
    outgoing.Requested config now selected msg outgoing

theorem handleRequest_requested (cfg : Config) (now : ℕ) (selected : List Edu × ℕ) (msg : Msg Edu)
    (outgoing : Outgoing Edu) :
    outgoing.Requested cfg now selected msg (outgoing.handleRequest cfg now selected msg) := by
  cases status : outgoing.status with
  | none =>
    have current : selectEventsCurrent cfg msg.dest msg.revive now outgoing.status = (true, false, .running) := by
      rw [status]
      rfl
    unfold handleRequest selectEvents
    rw [current]
    cases dest : msg.dest with
    | federation serverName => exact .begun status selected.1 selected.2
    | appservice id | push userId pushkey => exact .begun status [] outgoing.educount
  | some entry =>
    have busy : outgoing.status ≠ none := by
      rw [status]
      exact Option.some_ne_none entry
    have unmoved : selectEventsCurrent cfg msg.dest msg.revive now outgoing.status = (false, false, entry) →
        outgoing.Requested cfg now selected msg (outgoing.handleRequest cfg now selected msg) := by
      intro current
      have same : outgoing.handleRequest cfg now selected msg = { outgoing with status := some entry } := by
        unfold handleRequest selectEvents
        rw [current]
      rw [same, ← status]
      exact .same busy (by rw [current])
    cases entry with
    | running | retrying tries => exact unmoved (by rw [status]; rfl)
    | failed tries time =>
      by_cases waits : (!msg.revive && continueExponentialBackoffSecs cfg.senderTimeout cfg.senderRetryBackoffLimit
          (now - time) tries && !msg.dest.isAppservice) = true
      · exact unmoved (by rw [status]; exact if_pos waits)
      · have current : selectEventsCurrent cfg msg.dest msg.revive now outgoing.status = (true, true,
          .retrying tries) := by
          rw [status]
          exact if_neg waits
        unfold handleRequest selectEvents
        rw [current]
        cases rows : outgoing.activeRequests with
        | nil => exact .dropped status rows (by rw [current])
        | cons first rest =>
          have retried : outgoing.Requested cfg now selected msg
              ({ outgoing with status := some (.retrying tries) }.sendEvents outgoing.activeRequests) :=
            .retried status (rows ▸ List.cons_ne_nil first rest)
          rw [rows] at retried
          exact retried

inductive Answered (outgoing : Outgoing Edu) : Outgoing Edu → Prop where
  | emptied (rows : outgoing.queued.entries = []) :
    Answered outgoing { outgoing.deleteAllActiveRequests with status := none }
  | dequeued (rows : List (Row Edu)) {after : Outgoing Edu} (nonempty : rows ≠ [])
    (listed : rows ⊆ outgoing.queued.entries)
      (active : ∀ id value, after.active.get id = some value ↔ (id, value) ∈ rows)
      (gone : ∀ id ∈ rows.map Prod.fst, after.queued.get id = none)
      (left : ∀ id, id ∉ rows.map Prod.fst → after.queued.get id = outgoing.queued.get id)
      (status : after.status = some .running) (futures : after.futures = outgoing.futures ++ [rows.map .queued])
      (sent : after.sent = outgoing.sent ++ [rows.map .queued]) (requested : after.requested = outgoing.requested)
      (acknowledged : after.acknowledged = outgoing.acknowledged) : Answered outgoing after

theorem handleResponseOk_answered (outgoing : Outgoing Edu) : Answered outgoing outgoing.handleResponseOk := by
  have taken : outgoing.deleteAllActiveRequests.queuedRequests.take dequeueLimit =
      (outgoing.queued.entries.take dequeueLimit).map .queued := by
    rw [List.map_take]
    rfl
  unfold handleResponseOk
  cases rows : outgoing.queued.entries.take dequeueLimit with
  | nil =>
    have none : outgoing.queued.entries = [] := by
      rcases List.take_eq_nil_iff.mp rows with zero | none
      · cases zero
      · exact none
    rw [rows] at taken
    simp only [taken]
    exact .emptied none
  | cons first rest =>
    have listed : first :: rest ⊆ outgoing.queued.entries := by
      rw [← rows]
      exact List.take_subset _ _
    rw [rows] at taken
    simp only [taken, List.map_cons]
    have moved : ((Item.queued first :: rest.map Item.queued).filterMap Item.row) = first :: rest :=
      @filterMap_queued Edu (first :: rest)
    refine .dequeued _ (List.cons_ne_nil first rest) listed ?_ ?_ ?_ rfl rfl rfl rfl rfl
    · intro id value
      unfold sendEvents markAsActive
      rw [moved]
      exact BTreeMap.get_insertAll_empty listed
    · intro id mem
      unfold sendEvents markAsActive
      rw [moved]
      exact (BTreeMap.get_eraseAll (first :: rest)).trans (if_pos mem)
    · intro id absent
      unfold sendEvents markAsActive
      rw [moved]
      exact (BTreeMap.get_eraseAll (first :: rest)).trans (if_neg absent)

end Outgoing

/-- What one step does to what there is for a destination, with the phase that it leaves. -/
inductive Moved (config : Config) (worker : Worker Edu) (dest : Destination) : Label Edu → Phase → Outgoing Edu →
    Prop where
  | same {label : Label Edu} {phase : Phase} (phases : phase ≠ .finishing → worker.phase ≠ .finishing) :
    Moved config worker dest label phase (worker.outgoing dest)
  | queue {row : Row Edu} : Moved config worker dest (.queue dest row) worker.phase
    ((worker.outgoing dest).queueRequest row)
  | receive {now : ℕ} {selected : List Edu × ℕ} {msg : Msg Edu} {rest : List (Msg Edu)} {after : Outgoing Edu}
      (working : worker.phase ≠ .finishing) (first : worker.channel = msg :: rest) (own : msg.dest = dest)
      (requested : (worker.outgoing dest).Requested config now selected msg after) :
    Moved config worker dest (.receive now selected) worker.phase after
  | ok {index now : ℕ} {items : Transaction Edu} {after : Outgoing Edu} (working : worker.phase ≠ .finishing)
      (held : (worker.outgoing dest).futures[index]? = some items)
      (answered : (((worker.outgoing dest).complete index).acknowledge items).Answered after) :
    Moved config worker dest (.respond dest index true now) worker.phase after
  | err {index now : ℕ} {items : Transaction Edu} {status : Option TransactionStatus}
    (working : worker.phase ≠ .finishing)
      (held : (worker.outgoing dest).futures[index]? = some items)
      (told : (status = none ∧ (worker.outgoing dest).status = none) ∨ ∃ tries time, status = some (.failed tries time)) :
    Moved config worker dest (.respond dest index false now) worker.phase
      { (worker.outgoing dest).complete index with status }
  | finishOk {index : ℕ} {items : Transaction Edu} (finishing : worker.phase = .finishing)
      (held : (worker.outgoing dest).futures[index]? = some items) :
    Moved config worker dest (.finish dest index true) worker.phase
      (((worker.outgoing dest).complete index).acknowledge items).deleteAllActiveRequests
  | finishErr {index : ℕ} {items : Transaction Edu} (finishing : worker.phase = .finishing)
      (held : (worker.outgoing dest).futures[index]? = some items) :
    Moved config worker dest (.finish dest index false) worker.phase ((worker.outgoing dest).complete index)
  | stopped {netburst : Bool} {keep : ℤ} {active : BTreeMap Bytes (Option Edu)}
      (kept : active = (worker.outgoing dest).active ∨ active = Outgoing.keptRows keep (worker.outgoing dest).active) :
    Moved config worker dest (.restart netburst keep) .working { (worker.outgoing dest).stopped with active }
  | burst {netburst : Bool} {keep : ℤ} {active : BTreeMap Bytes (Option Edu)}
      (kept : active = Outgoing.keptRows keep (worker.outgoing dest).active) :
    Moved config worker dest (.restart netburst keep) .working
      ({ (worker.outgoing dest).stopped with active, status := some .running }.sendEvents (active.entries.map .queued))

theorem Outgoing.burst_cases (netburst : Bool) (outgoing : Outgoing Edu) :
    (outgoing.burst netburst = outgoing ∧ ¬ (netburst = true ∧ outgoing.activeRequests ≠ [])) ∨
    (outgoing.burst netburst = { outgoing with status := some .running }.sendEvents outgoing.activeRequests ∧
      netburst = true ∧ outgoing.activeRequests ≠ []) := by
  unfold Outgoing.burst
  split
  · rename_i burst
    rw [Bool.and_eq_true, Bool.not_eq_true', List.isEmpty_eq_false_iff] at burst
    exact Or.inr ⟨rfl, burst⟩
  · rename_i silent
    rw [Bool.and_eq_true, Bool.not_eq_true', List.isEmpty_eq_false_iff] at silent
    exact Or.inl ⟨rfl, silent⟩

theorem handleResponseErr_status {now : ℕ} {outgoing next : Outgoing Edu}
    (handled : outgoing.handleResponseErr now = some next) :
    ∃ status, next = { outgoing with status } ∧
      ((status = none ∧ outgoing.status = none) ∨ ∃ tries time, status = some (.failed tries time)) := by
  unfold Outgoing.handleResponseErr at handled
  split at handled
  · rename_i free
    cases handled
    exact ⟨none, by rw [← free], Or.inl ⟨rfl, free⟩⟩
  · cases handled
    exact ⟨_, rfl, Or.inr ⟨_, _, rfl⟩⟩
  · cases handled
    exact ⟨_, rfl, Or.inr ⟨_, _, rfl⟩⟩
  · cases handled

section Moved

variable {worker after : Worker Edu} {label : Label Edu} {dest : Destination}

theorem outgoing_dispatch (cfg : Config) (worker : Worker Edu) (msg : Msg Edu) :
    (worker.dispatch cfg msg).outgoing = worker.outgoing ∧
    (worker.dispatch cfg msg).phase = worker.phase := by
  unfold Worker.dispatch
  split
  · exact ⟨rfl, rfl⟩
  · exact ⟨rfl, rfl⟩

theorem outgoing_change_self (outgoing : Outgoing Edu) : (worker.change dest outgoing).outgoing dest = outgoing :=
  Function.update_self ..

variable {changed : Destination}

theorem outgoing_change_of_ne (ne : dest ≠ changed) (outgoing : Outgoing Edu) :
    (worker.change changed outgoing).outgoing dest = worker.outgoing dest := Function.update_of_ne ne ..

theorem moved_change {phase : Phase} {outgoing : Outgoing Edu}
    (phases : phase ≠ .finishing → worker.phase ≠ .finishing)
    (own : changed = dest → Moved cfg worker dest label phase outgoing) :
    Moved cfg worker dest label phase ((worker.change changed outgoing).outgoing dest) := by
  rcases eq_or_ne dest changed with rfl | ne
  · rw [outgoing_change_self]
    exact own rfl
  · rw [outgoing_change_of_ne ne]
    exact .same phases

theorem next_moved (stepped : worker.next cfg label = some after) (dest : Destination) :
    Moved cfg worker dest label after.phase (after.outgoing dest) := by
  cases label with
  | queue changed row =>
    cases stepped
    obtain ⟨outgoing, phase⟩ := outgoing_dispatch cfg
      (worker.change changed ((worker.outgoing changed).queueRequest row)) ⟨changed, .queued row, false⟩
    rw [outgoing, phase]
    apply moved_change id
    rintro rfl
    exact .queue
  | flush changed revive =>
    cases stepped
    obtain ⟨outgoing, phase⟩ := outgoing_dispatch cfg worker ⟨changed, .flush, revive⟩
    rw [outgoing, phase]
    exact .same id
  | receive now selected =>
    simp only [Worker.next] at stepped
    split at stepped
    · cases stepped
    · cases stepped
    · rename_i msg rest first working
      cases stepped
      apply moved_change id
      intro own
      subst own
      exact .receive working first rfl (Outgoing.handleRequest_requested cfg now selected msg _)
  | respond changed index ok now =>
    simp only [Worker.next] at stepped
    split at stepped
    · cases stepped
    · rename_i working
      obtain ⟨items, held, handled⟩ := Option.bind_eq_some_iff.mp stepped
      unfold Worker.handleResponse at handled
      split at handled
      · rename_i success
        cases handled
        apply moved_change id
        rintro rfl
        rw [success]
        exact .ok working held (Outgoing.handleResponseOk_answered _)
      · rename_i failure
        obtain ⟨outgoing, failed, rfl⟩ := Option.map_eq_some_iff.mp handled
        obtain ⟨status, rfl, told⟩ := handleResponseErr_status failed
        apply moved_change id
        rintro rfl
        rw [Bool.eq_false_iff.mpr failure]
        exact .err working held told
  | close =>
    simp only [Worker.next] at stepped
    split at stepped
    · rename_i working
      cases stepped
      exact .same fun _ => by rw [working]; exact Phase.noConfusion
    · cases stepped
  | leave =>
    simp only [Worker.next] at stepped
    split at stepped
    · cases stepped
      exact .same fun working => absurd rfl working
    · cases stepped
  | finish changed index ok =>
    simp only [Worker.next] at stepped
    split at stepped
    · rename_i finishing
      obtain ⟨items, held, rfl⟩ := Option.map_eq_some_iff.mp stepped
      apply moved_change id
      rintro rfl
      cases ok with
      | true => exact .finishOk finishing held
      | false => exact .finishErr finishing held
    · cases stepped
  | restart netburst keep =>
    cases stepped
    show Moved cfg worker dest _ .working (if cfg.mine dest then _ else _)
    split
    · have started := Outgoing.burst_cases netburst { (worker.outgoing dest).stopped with
        active := Outgoing.keptRows keep (worker.outgoing dest).active }
      rcases started with ⟨same, _⟩ | ⟨same, _⟩
      · rw [Outgoing.startupNetburst, same]
        exact .stopped (Or.inr rfl)
      · rw [Outgoing.startupNetburst, same]
        exact .burst rfl
    · exact .stopped (Or.inl rfl)

end Moved

end Phantom.Sending
