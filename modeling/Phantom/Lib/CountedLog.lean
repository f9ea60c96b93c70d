import Mathlib.Data.Set.Basic

namespace Phantom.Lib

/-- A log whose writers draw a number from a counter and put their row under it later. -/
structure CountedLog (ρ : Type) where
  count : Nat
  drawn : Set Nat
  rows : Nat → Option ρ

namespace CountedLog

variable {ρ : Type} {log after : CountedLog ρ} {Done More : Nat → ρ → Prop} {since nextBatch : Nat}

structure Advances (log after : CountedLog ρ) : Prop where
  count : log.count ≤ after.count
  drawn : ∀ number ∈ after.drawn, number ∈ log.drawn ∨ log.count < number
  rows : ∀ number row, after.rows number = some row → log.rows number = some row ∨ number ∈ log.drawn

/-- No row will appear at or below the number any more. -/
structure Settled (log : CountedLog ρ) (number : Nat) : Prop where
  counted : number ≤ log.count
  above : ∀ other ∈ log.drawn, number < other

/-- The reader can go on from the number: every row at or below it is done with. -/
structure CaughtUp (log : CountedLog ρ) (Done : Nat → ρ → Prop) (number : Nat) : Prop where
  settled : log.Settled number
  rows : ∀ other row, log.rows other = some row → other ≤ number → Done other row

theorem Advances.refl (log : CountedLog ρ) : log.Advances log :=
  ⟨Nat.le_refl _, fun _ mem => Or.inl mem, fun _ _ present => Or.inl present⟩

theorem Settled.advance (settled : log.Settled nextBatch) (advances : log.Advances after) :
    after.Settled nextBatch := by
  refine ⟨Nat.le_trans settled.counted advances.count, ?_⟩
  intro other mem
  rcases advances.drawn other mem with before | above
  · exact settled.above other before
  · exact Nat.lt_of_le_of_lt settled.counted above

/-- Sampling the counter settles it when no writer is between its draw and its row. -/
theorem settled_count (quiet : ∀ n, n ∉ log.drawn) : log.Settled log.count :=
  ⟨Nat.le_refl _, fun n mem => absurd mem (quiet n)⟩

theorem Settled.mono (settled : log.Settled nextBatch) (below : since ≤ nextBatch) : log.Settled since := by
  refine ⟨Nat.le_trans below settled.counted, ?_⟩
  intro other mem
  exact Nat.lt_of_le_of_lt below (settled.above other mem)

theorem CaughtUp.advance (caught : log.CaughtUp Done since) (advances : log.Advances after)
    (more : ∀ n row, Done n row → More n row) : after.CaughtUp More since := by
  refine ⟨caught.settled.advance advances, ?_⟩
  intro other row present below
  rcases advances.rows other row present with before | drawn
  · exact more other row (caught.rows other row before below)
  · have above := caught.settled.above other drawn
    omega

theorem CaughtUp.mono (caught : log.CaughtUp Done nextBatch) (below : since ≤ nextBatch) : log.CaughtUp Done since :=
  ⟨caught.settled.mono below, fun other row present less => caught.rows other row present (Nat.le_trans less below)⟩

theorem CaughtUp.read (caught : log.CaughtUp Done since) (settled : log.Settled nextBatch)
    (more : ∀ n row, Done n row → More n row)
    (seen : ∀ n row, log.rows n = some row → since < n → n ≤ nextBatch → More n row) :
    log.CaughtUp More nextBatch := by
  refine ⟨settled, ?_⟩
  grind [CaughtUp.rows]

section Writers

variable {ι π : Type} {count next : Nat} {drawn : π → Option Nat} {phases : ι → π} {rows rows' : Nat → Option ρ}

def ofWriters (count : Nat) (drawn : π → Option Nat) (phases : ι → π) (rows : Nat → Option ρ) : CountedLog ρ where
  count := count
  drawn := { number | ∃ writer, drawn (phases writer) = some number }
  rows := rows

theorem advances_keep (more : count ≤ next) (kept : ∀ n row, rows' n = some row → rows n = some row) :
    (ofWriters count drawn phases rows).Advances (ofWriters next drawn phases rows') :=
  ⟨more, fun _ mem => Or.inl mem, fun n row present => Or.inl (kept n row present)⟩

/-- A writer holds a number that it has held before or draws a new one, and writes under one that it has held. -/
theorem advances_move [DecidableEq ι] {writer : ι} {phase : π} (more : count ≤ next)
    (held : ∀ n, drawn phase = some n → drawn (phases writer) = some n ∨ count < n)
    (kept : ∀ n row, rows' n = some row → rows n = some row ∨ drawn (phases writer) = some n) :
    (ofWriters count drawn phases rows).Advances
      (ofWriters next drawn (Function.update phases writer phase) rows') := by
  refine ⟨more, ?_, ?_⟩
  · rintro n ⟨other, holds⟩
    by_cases same : other = writer
    · subst same
      rw [Function.update_self] at holds
      exact (held n holds).imp_left fun before => ⟨other, before⟩
    · rw [Function.update_of_ne same] at holds
      exact Or.inl ⟨other, holds⟩
  · exact fun n row present => (kept n row present).imp_right fun drew => ⟨writer, drew⟩

end Writers

end CountedLog

end Phantom.Lib
