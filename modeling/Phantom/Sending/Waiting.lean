import Phantom.Lib.History
import Phantom.Sending.Flights

namespace Phantom.Sending

open Phantom.Lib

variable {Edu : Type} {config cfg : Config} {worker after : Worker Edu} {label : Label Edu} {dest : Destination}

def Waits (worker : Worker Edu) (dest : Destination) : Prop :=
  (worker.outgoing dest).status ≠ none ∨ ∃ msg ∈ worker.channel, msg.dest = dest

variable (config : Config)

def NoneStranded (worker : Worker Edu) : Prop :=
  ∀ dest, config.mine dest = true → (worker.outgoing dest).queued.entries ≠ [] → Waits worker dest

/-- A row is queued while the channel is open or the destination waits. A message that finds nothing to retry is not
    the last one for queued rows. A destination with queued rows at a restart has active rows, which are sent. -/
def Fine (worker : Worker Edu) : Label Edu → Prop
  | .queue dest _ => worker.phase = .working ∨ (config.mine dest = true → Waits worker dest)
  | .receive now _ => ∀ msg rest, worker.channel = msg :: rest → config.mine msg.dest = true →
      (selectEventsCurrent config msg.dest msg.revive now (worker.outgoing msg.dest).status).2.1 = true →
      (worker.outgoing msg.dest).activeRequests = [] → (worker.outgoing msg.dest).queued.entries ≠ [] →
      ∃ other ∈ rest, other.dest = msg.dest
  | .restart netburst keep => ∀ dest, config.mine dest = true → (worker.outgoing dest).queued.entries ≠ [] →
      netburst = true ∧ (Outgoing.keptRows keep (worker.outgoing dest).active).entries ≠ []
  | _ => True

section Step

variable {selected : List Edu × ℕ} {outgoing : Outgoing Edu}

theorem waits_mono (same : (after.outgoing dest).status = (worker.outgoing dest).status)
    (grown : worker.channel ⊆ after.channel) (waits : Waits worker dest) : Waits after dest := by
  refine waits.imp ?_ ?_
  · intro busy
    rw [same]
    exact busy
  · grind

theorem channel_dispatch (cfg : Config) (worker : Worker Edu) (msg : Msg Edu) :
    worker.channel ⊆ (worker.dispatch cfg msg).channel ∧
      (worker.phase = .working → cfg.mine msg.dest = true → msg ∈ (worker.dispatch cfg msg).channel) ∧
      (worker.phase ≠ .working → (worker.dispatch cfg msg).channel = worker.channel) := by
  grind [Worker.dispatch]

theorem insert_entries_ne_nil (table : BTreeMap Bytes (Option Edu)) (row : Row Edu) :
    (table.insert row.1 row.2).entries ≠ [] := by
  have found : (table.insert row.1 row.2).get row.1 = some row.2 := by rw [BTreeMap.get_insert_eq, if_pos rfl]
  grind [BTreeMap.get_eq_some]

theorem noneStranded_queue {row : Row Edu} (holds : NoneStranded cfg worker)
    (stepped : worker.next cfg (.queue dest row) = some after) :
    NoneStranded cfg after ↔ Fine cfg worker (.queue dest row) := by
  cases stepped
  have outgoing := (outgoing_dispatch cfg (worker.change dest ((worker.outgoing dest).queueRequest row))
    ⟨dest, .queued row, false⟩).1
  have channel := channel_dispatch cfg (worker.change dest ((worker.outgoing dest).queueRequest row))
    ⟨dest, .queued row, false⟩
  generalize Worker.dispatch cfg _ _ = after at outgoing channel ⊢
  obtain ⟨grown, sent, refused⟩ : worker.channel ⊆ after.channel ∧
    (worker.phase = .working → cfg.mine dest = true → Msg.mk dest (.queued row) false ∈ after.channel) ∧
    (worker.phase ≠ .working → after.channel = worker.channel) := channel
  have own : after.outgoing dest = (worker.outgoing dest).queueRequest row := by
    rw [outgoing, outgoing_change_self]
  constructor
  · intro stays
    by_cases working : worker.phase = .working
    · exact Or.inl working
    · refine Or.inr (fun mine => ?_)
      have waits := stays dest mine (by rw [own]; exact insert_entries_ne_nil _ row)
      exact waits_mono (by rw [own]; rfl) (by rw [refused working]; exact List.Subset.refl _) waits
  · intro fine other mine rows
    rcases eq_or_ne other dest with rfl | ne
    · rcases fine with working | waits
      · exact Or.inr ⟨_, sent working mine, rfl⟩
      · exact waits_mono (by rw [own]; rfl) grown (waits mine)
    · have same : after.outgoing other = worker.outgoing other := by
        rw [outgoing, outgoing_change_of_ne ne]
      rw [same] at rows
      exact waits_mono (by rw [same]) grown (holds other mine rows)

variable {now : ℕ}

theorem requested_status {msg : Msg Edu} {handled : Outgoing Edu}
    (requested : outgoing.Requested cfg now selected msg handled) :
    (handled.status = none ↔ (selectEventsCurrent cfg msg.dest msg.revive now outgoing.status).2.1 = true ∧
      outgoing.activeRequests = []) ∧ (handled.status = none → handled.queued = outgoing.queued) := by
  cases requested with
  | begun free =>
    refine ⟨⟨fun none => (Option.some_ne_none _ none).elim, ?_⟩, fun none => (Option.some_ne_none _ none).elim⟩
    rintro ⟨retry, _⟩
    rw [free] at retry
    cases retry
  | retried failed rows =>
    exact ⟨⟨fun none => (Option.some_ne_none _ none).elim, fun found => absurd found.2 rows⟩,
      fun none => (Option.some_ne_none _ none).elim⟩
  | dropped failed rows retry | same busy stays => grind

theorem noneStranded_receive (holds : NoneStranded cfg worker)
    (stepped : worker.next cfg (.receive now selected) = some after) :
    NoneStranded cfg after ↔ Fine cfg worker (.receive now selected) := by
  simp only [Worker.next] at stepped
  split at stepped
  · cases stepped
  · cases stepped
  · rename_i msg rest first working
    obtain ⟨dropped, queued⟩ := requested_status
      (Outgoing.handleRequest_requested cfg now selected msg (worker.outgoing msg.dest))
    generalize (worker.outgoing msg.dest).handleRequest cfg now selected msg = handled at stepped dropped queued
    cases stepped
    have own := @outgoing_change_self Edu { worker with channel := rest } msg.dest handled
    constructor
    · intro stays msg rest found mine retry none rows
      rw [first] at found
      cases found
      have free := dropped.mpr ⟨retry, none⟩
      rcases stays msg.dest mine (by rw [own, queued free]; exact rows) with busy | waits
      · rw [own] at busy
        exact absurd free busy
      · exact waits
    · intro fine other mine rows
      rcases eq_or_ne other msg.dest with rfl | ne
      · by_cases free : handled.status = none
        · rw [own, queued free] at rows
          obtain ⟨retry, none⟩ := dropped.mp free
          exact Or.inr (fine msg rest first mine retry none rows)
        · exact Or.inl (by rw [own]; exact free)
      · have same := @outgoing_change_of_ne Edu { worker with channel := rest } other msg.dest ne handled
        rw [same] at rows
        rcases holds other mine rows with busy | ⟨waiting, mem, dest⟩
        · exact Or.inl (by rw [same]; exact busy)
        · rw [first] at mem
          rcases List.mem_cons.mp mem with rfl | later
          · exact absurd dest.symm ne
          · exact Or.inr ⟨waiting, later, dest⟩

theorem startupNetburst_status (netburst : Bool) (keep : ℤ) (outgoing : Outgoing Edu) :
    ((outgoing.startupNetburst netburst keep).status ≠ none ↔
      netburst = true ∧ (Outgoing.keptRows keep outgoing.active).entries ≠ []) ∧
    (outgoing.startupNetburst netburst keep).queued = outgoing.queued := by
  have started := Outgoing.burst_cases netburst { outgoing.stopped with active := Outgoing.keptRows keep outgoing.active }
  have rows : (Outgoing.keptRows keep outgoing.active).entries.map Item.queued ≠ [] ↔
      (Outgoing.keptRows keep outgoing.active).entries ≠ [] := not_congr List.map_eq_nil_iff
  rcases started with ⟨same, silent⟩ | ⟨same, burst, sent⟩
  · rw [Outgoing.startupNetburst, same]
    exact ⟨⟨fun busy => absurd rfl busy, fun found => absurd ⟨found.1, rows.mpr found.2⟩ silent⟩, rfl⟩
  · rw [Outgoing.startupNetburst, same]
    exact ⟨⟨fun _ => ⟨burst, rows.mp sent⟩, fun _ => Option.some_ne_none _⟩, rfl⟩

theorem noneStranded_restart {netburst : Bool} {keep : ℤ}
    (stepped : worker.next cfg (.restart netburst keep) = some after) :
    NoneStranded cfg after ↔ Fine cfg worker (.restart netburst keep) := by
  cases stepped
  constructor
  · intro stays dest mine rows
    obtain ⟨busy, queued⟩ := startupNetburst_status netburst keep (worker.outgoing dest)
    have waits := stays dest mine
    grind [Waits]
  · intro fine dest mine rows
    obtain ⟨busy, queued⟩ := startupNetburst_status netburst keep (worker.outgoing dest)
    simp only [if_pos mine, Waits] at rows ⊢
    rw [queued] at rows
    exact Or.inl (busy.mpr (fine dest mine rows))

theorem noneStranded_change (holds : NoneStranded cfg worker)
    (keeps : outgoing.queued.entries ≠ [] → outgoing.status ≠ none ∨
      (outgoing.queued = (worker.outgoing dest).queued ∧ outgoing.status = (worker.outgoing dest).status)) :
    NoneStranded cfg (worker.change dest outgoing) := by
  intro other mine rows
  rcases eq_or_ne other dest with rfl | ne
  · have own := @outgoing_change_self Edu worker other outgoing
    rw [own] at rows
    rcases keeps rows with busy | ⟨queued, status⟩
    · exact Or.inl (by rw [own]; exact busy)
    · rw [queued] at rows
      exact waits_mono (by rw [own, status]) (List.Subset.refl worker.channel) (holds other mine rows)
  · have same := @outgoing_change_of_ne Edu worker other dest ne outgoing
    rw [same] at rows
    exact waits_mono (by rw [same]) (List.Subset.refl worker.channel) (holds other mine rows)

variable {index : ℕ} {ok : Bool}

section

variable (holds : NoneStranded cfg worker)
include holds

theorem noneStranded_respond (stepped : worker.next cfg (.respond dest index ok now) = some after) :
    NoneStranded cfg after := by
  simp only [Worker.next] at stepped
  split at stepped
  · cases stepped
  · obtain ⟨items, held, handled⟩ := Option.bind_eq_some_iff.mp stepped
    unfold Worker.handleResponse at handled
    split at handled
    · cases handled
      refine noneStranded_change holds ?_
      have answered := (((worker.outgoing dest).complete index).acknowledge items).handleResponseOk_answered
      generalize Outgoing.handleResponseOk _ = next at answered
      cases answered with
      | emptied none => exact fun rows => absurd none rows
      | dequeued rows nonempty listed active gone left status =>
        grind
    · obtain ⟨next, failed, rfl⟩ := Option.map_eq_some_iff.mp handled
      refine noneStranded_change holds fun _ => ?_
      obtain ⟨status, rfl, ⟨rfl, free⟩ | ⟨_, _, rfl⟩⟩ := handleResponseErr_status failed
      · exact Or.inr ⟨rfl, free.symm⟩
      · exact Or.inl (Option.some_ne_none _)

theorem noneStranded_finish (stepped : worker.next cfg (.finish dest index ok) = some after) :
    NoneStranded cfg after := by
  simp only [Worker.next] at stepped
  split at stepped
  · obtain ⟨items, held, rfl⟩ := Option.map_eq_some_iff.mp stepped
    refine noneStranded_change holds fun _ => Or.inr ?_
    cases ok with
    | true | false => exact ⟨rfl, rfl⟩
  · cases stepped

theorem noneStranded_next (stepped : worker.next cfg label = some after) :
    NoneStranded cfg after ↔ Fine cfg worker label := by
  cases label with
  | queue dest row => exact noneStranded_queue holds stepped
  | receive now selected => exact noneStranded_receive holds stepped
  | restart netburst keep => exact noneStranded_restart stepped
  | respond dest index ok now => exact iff_of_true (noneStranded_respond holds stepped) True.intro
  | finish dest index ok => exact iff_of_true (noneStranded_finish holds stepped) True.intro
  | flush dest revive =>
    cases stepped
    refine iff_of_true ?_ True.intro
    intro other mine rows
    have outgoing := (outgoing_dispatch cfg worker ⟨dest, .flush, revive⟩).1
    rw [outgoing] at rows
    exact waits_mono (by rw [outgoing]) (channel_dispatch cfg worker _).1 (holds other mine rows)
  | close | leave =>
    simp only [Worker.next] at stepped
    split at stepped
    · cases stepped
      exact iff_of_true holds True.intro
    · cases stepped

end

end Step

def Worker.reached (labels : List (Label Edu)) : Option (Worker Edu) :=
    labels.foldlM (Worker.next config) .empty

/-- No queue is stranded at any point of a run exactly if every step of it is a fine one. -/
theorem no_stranded_queue_iff (config : Config) (labels : List (Label Edu)) :
    (∀ done, done <+: labels → ∀ worker, Worker.reached config done = some worker → NoneStranded config worker) ↔
      ∀ done label, done ++ [label] <+: labels → ∀ worker after, Worker.reached config done = some worker →
        worker.next config label = some after → Fine config worker label := by
  apply holds_throughout_iff
  · intro worker reached
    cases reached
    exact fun dest _ rows => absurd rfl rows
  · intro done label holds
    have appended : ∀ after, Worker.reached config (done ++ [label]) = some after ↔
        ∃ worker, Worker.reached config done = some worker ∧ worker.next config label = some after := by
      intro after
      simp only [Worker.reached, List.foldlM_append, List.foldlM_cons, List.foldlM_nil, bind_pure]
      exact Option.bind_eq_some_iff
    constructor
    · intro stays worker after reached stepped
      exact (noneStranded_next (holds worker reached) stepped).mp
        (stays after ((appended after).mpr ⟨worker, reached, stepped⟩))
    · intro fine after reached
      obtain ⟨worker, before, stepped⟩ := (appended after).mp reached
      exact (noneStranded_next (holds worker before) stepped).mpr (fine worker after before stepped)

namespace Sample

theorem stranded {worker : Worker String} (rows : (worker.outgoing far).queued.entries ≠ [])
    (free : (worker.outgoing far).status = none) (none : worker.channel = []) : ¬ NoneStranded network worker := by
  intro stays
  rcases stays far rfl rows with busy | ⟨msg, mem, _⟩
  · exact busy free
  · rw [none] at mem
    exact absurd mem List.not_mem_nil

/-- The worker is started again before it receives the message, or the message finds nothing to retry. -/
theorem queue_stranded :
    (∃ worker : Worker String, Worker.reached network [.queue far hello, .restart true (-1)] = some worker ∧
      ¬ NoneStranded network worker) ∧
    ∃ worker : Worker String, Worker.reached network [.flush far false, .receive 0 ([], 0), .respond far 0 false 1,
      .queue far hello, .receive 1000 ([], 0)] = some worker ∧ ¬ NoneStranded network worker :=
  ⟨⟨_, rfl, stranded (by decide) rfl rfl⟩, ⟨_, rfl, stranded (by decide) rfl rfl⟩⟩

end Sample

end Phantom.Sending
