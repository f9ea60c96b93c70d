import Mathlib.Data.List.Induction
import Phantom.Lib.Action

namespace Phantom.ServerState

open Phantom.Lib

inductive Error where
  | insert
deriving DecidableEq

/-- The counter of a process beside the row `c` of the table of globals. A panic under the lock poisons it. -/
structure Counter where
  count : UInt64
  poisoned : Bool
  global : Option UInt64

def storedCount (global : Option UInt64) : UInt64 := global.getD 0

namespace Counter

def new (global : Option UInt64) : Counter := ⟨storedCount global, false, global⟩

/-- `inserted` tells whether the store takes the row. The engine is corked, so a row that is refused is not there. -/
def next (inserted : Bool) : Action Counter Error UInt64 := fun counter =>
  if counter.poisoned then (.error (.panic "locked"), counter)
  else if counter.count.toNat + 1 < UInt64.size then
    let advanced := { counter with count := counter.count + 1 }
    if inserted then (.ok advanced.count, { advanced with global := some advanced.count })
    else (.fail .insert, advanced)
  else (.error (.panic "counter must not overflow u64"), { counter with poisoned := true })

/-- `next` gets as far as the store. -/
def advances (counter : Counter) : Bool := !counter.poisoned && counter.count.toNat + 1 < UInt64.size

end Counter

inductive Call where
  | next (inserted : Bool)
  | restart

/-- What became of the calls, the newest first. -/
structure History where
  counter : Counter
  answers : List (Outcome Error UInt64)

namespace History

variable (history : History)

def serve : Call → History
  | .next inserted =>
    ⟨(history.counter.next inserted).2, (history.counter.next inserted).1 :: history.answers⟩
  | .restart => { history with counter := .new history.counter.global }

def run (global : Option UInt64) (calls : List Call) : History := calls.foldl serve ⟨.new global, []⟩

def returned : List UInt64 := history.answers.filterMap Except.toOption

/-- The call comes to write the row, and the store does not take it. -/
def Refused : Call → Prop
  | .next inserted => inserted = false ∧ history.counter.advances = true
  | .restart => False

def Tracks : Prop := history.counter.count = storedCount history.counter.global

/-- The row is at or above what was returned, and the number in memory at or above the row. -/
structure Ordered (history : History) : Prop where
  handed : ∀ value ∈ history.returned, value ≤ storedCount history.counter.global
  behind : storedCount history.counter.global ≤ history.counter.count
  increasing : history.returned.Pairwise fun newer older => older < newer

end History

open History

variable {h : History}

theorem serve_next (h : History) (inserted : Bool) :
    (h.counter.advances = false ∧ ∃ failure counter, h.serve (.next inserted) = ⟨counter, .error failure :: h.answers⟩ ∧
      counter.count = h.counter.count ∧ counter.global = h.counter.global) ∨
    (h.counter.advances = true ∧ ∃ advanced, h.counter.count < advanced ∧ h.serve (.next inserted) =
      (if inserted then ⟨⟨advanced, h.counter.poisoned, some advanced⟩, .ok advanced :: h.answers⟩
        else ⟨⟨advanced, h.counter.poisoned, h.counter.global⟩, .fail .insert :: h.answers⟩)) := by
  simp only [serve, Counter.next, Counter.advances]
  split
  · next poisoned => exact Or.inl ⟨by simp [poisoned], _, _, rfl, rfl, rfl⟩
  · next clean =>
    split
    · next room =>
      refine Or.inr ⟨by simp [clean, room], h.counter.count + 1, ?_, ?_⟩
      · rw [UInt64.lt_iff_toNat_lt, UInt64.toNat_add]
        exact (Nat.mod_eq_of_lt room).symm ▸ Nat.lt_succ_self _
      · split <;> rfl
    · next full => exact Or.inl ⟨by simp [full], _, _, rfl, rfl, rfl⟩

theorem ordered_serve (ordered : Ordered h) (call : Call) : Ordered (h.serve call) := by
  cases call with
  | restart => exact ⟨ordered.handed, UInt64.le_refl _, ordered.increasing⟩
  | next inserted =>
    rcases serve_next h inserted with ⟨_, failure, counter, served, count, global⟩ | ⟨_, advanced, above, served⟩
    · rw [served]
      exact ⟨global.symm ▸ ordered.handed, count.symm ▸ global.symm ▸ ordered.behind, ordered.increasing⟩
    · have beyond := UInt64.lt_of_le_of_lt ordered.behind above
      rw [served]
      cases inserted with
      | false => exact ⟨ordered.handed, UInt64.le_of_lt beyond, ordered.increasing⟩
      | true =>
        have less : ∀ value ∈ h.returned, value < advanced := fun value mem =>
          UInt64.lt_of_le_of_lt (ordered.handed value mem) beyond
        refine ⟨?_, UInt64.le_refl _, List.pairwise_cons.mpr ⟨less, ordered.increasing⟩⟩
        intro value mem
        rcases List.mem_cons.mp mem with rfl | old
        · exact UInt64.le_refl _
        · exact UInt64.le_of_lt (less value old)

variable (global : Option UInt64)

theorem ordered_run (calls : List Call) : Ordered (run global calls) := by
  induction calls using List.reverseRecOn with
  | nil => exact ⟨nofun, UInt64.le_refl _, .nil⟩
  | append_singleton calls call ih =>
    rw [run, List.foldl_append]
    exact ordered_serve ih call

/-- The two numbers stay equal over a call unless the store refuses the row. -/
theorem tracks_serve (ordered : Ordered h) (tracks : Tracks h) (call : Call) :
    Tracks (h.serve call) ↔ ¬ Refused h call := by
  cases call with
  | restart => exact ⟨fun _ => id, fun _ => rfl⟩
  | next inserted =>
    rcases serve_next h inserted with ⟨stuck, failure, counter, served, count, global⟩ | ⟨moves, advanced, above, served⟩
    · rw [served]
      refine ⟨fun _ refused => absurd refused.2 (by simp [stuck]), fun _ => ?_⟩
      exact count.trans (tracks.trans (congrArg storedCount global.symm))
    · rw [served]
      cases inserted with
      | true => exact ⟨fun _ => nofun, fun _ => rfl⟩
      | false =>
        refine ⟨fun same => ?_, fun accepted => absurd ⟨rfl, moves⟩ accepted⟩
        exact absurd (UInt64.lt_of_le_of_lt ordered.behind above) (same ▸ UInt64.lt_irrefl _)

theorem tracks_run_iff (calls : List Call) : (∀ before, before <+: calls → Tracks (run global before)) ↔
    ∀ before call, before ++ [call] <+: calls → ¬ Refused (run global before) call := by
  induction calls using List.reverseRecOn with
  | nil => exact ⟨fun _ _ _ start => absurd start (by simp), fun _ before start => List.prefix_nil.mp start ▸ rfl⟩
  | append_singleton calls call ih =>
    have served : run global (calls ++ [call]) = (run global calls).serve call := List.foldl_append
    have split : (∀ before last, before ++ [last] <+: calls ++ [call] → ¬ Refused (run global before) last) ↔
        ¬ Refused (run global calls) call ∧
          ∀ before last, before ++ [last] <+: calls → ¬ Refused (run global before) last := by
      grind [List.prefix_concat_iff, List.append_inj_left', List.append_inj_right']
    rw [split]
    simp only [List.prefix_concat_iff, forall_eq_or_imp, served, ih]
    exact and_congr_left fun none => tracks_serve (ordered_run global calls) (ih.mpr none calls List.prefix_rfl) call

/-- What is returned grows over the calls and the restarts. The number in memory is the stored one after each of them
    if and only if the store refuses no row that a call comes to write. -/
theorem count_tracks_store_iff (global : Option UInt64) (calls : List Call) :
    ((∀ before, before <+: calls → Tracks (run global before)) ∧
      (run global calls).returned.Pairwise fun newer older => older < newer) ↔
      ∀ before call, before ++ [call] <+: calls → ¬ Refused (run global before) call := by
  rw [tracks_run_iff]
  exact ⟨And.left, fun none => ⟨none, (ordered_run global calls).increasing⟩⟩

theorem count_ahead_of_store : let history := run (some 7) [.next false]
    history.answers = [.fail .insert] ∧ history.counter.count = 8 ∧ storedCount history.counter.global = 7 := by
  decide

end Phantom.ServerState
