import Mathlib.Data.List.Basic
import Mathlib.Data.List.Induction

namespace Phantom.Lib

/-- The finite runs of a labelled step relation. -/
inductive Run {σ α : Type} (Step : σ → α → σ → Prop) : σ → List α → σ → Prop where
  | nil (state : σ) : Run Step state [] state
  | cons {first middle last : σ} {label : α} {labels : List α}
      (step : Step first label middle) (rest : Run Step middle labels last) :
      Run Step first (label :: labels) last

namespace Run

variable {σ α : Type} {Step : σ → α → σ → Prop} {first middle last : σ} {labels more : List α}
variable {next : σ → α → Option σ} {allowed : σ → α → Bool}

theorem split (run : Run Step first (labels ++ more) last) :
    ∃ middle, Run Step first labels middle ∧ Run Step middle more last := by
  induction labels generalizing first with
  | nil => exact ⟨first, .nil first, run⟩
  | cons label labels ih =>
    cases run with
    | cons step rest =>
      obtain ⟨middle, left, right⟩ := ih rest
      exact ⟨middle, .cons step left, right⟩

theorem of_foldlM (sound : ∀ s label after, next s label = some after →
    Step s label after) (ran : labels.foldlM next first = some last) : Run Step first labels last := by
  induction labels generalizing first with
  | nil =>
    cases ran
    exact .nil _
  | cons label labels ih =>
    obtain ⟨middle, step, rest⟩ := Option.bind_eq_some_iff.mp ran
    exact .cons (sound first label middle step) (ih rest)

variable (Holds : σ → Prop) {Goal : σ → Prop}

theorem exists_of_foldlM [DecidablePred Holds]
    (passed : (labels.foldlM next first).any (fun last => decide (Holds last)) = true)
    (sound : ∀ s label after, next s label = some after → Step s label after)
    (implies : ∀ last, Run Step first labels last → Holds last → Goal last) :
    ∃ last, Run Step first labels last ∧ Goal last := by
  obtain ⟨last, ran, checked⟩ := (Option.any_eq_true _ _).mp passed
  have run := of_foldlM sound ran
  exact ⟨last, run, implies last run (of_decide_eq_true checked)⟩

def allowing (allowed : σ → α → Bool) (next : σ → α → Option σ) (state : σ) (label : α) : Option σ :=
  if allowed state label then next state label else none

theorem allowing_eq_some {s after : σ} {label : α} :
    allowing allowed next s label = some after ↔ allowed s label = true ∧ next s label = some after := by
  unfold allowing
  split
  · next permitted => rw [permitted, eq_self, true_and]
  · next refused => simp [refused]

theorem exists_of_allowing [DecidablePred Holds]
    (passed : (labels.foldlM (allowing allowed next) first).any (fun last => decide (Holds last)) = true)
    (implies : ∀ last, Run (fun s label after => allowed s label = true ∧
    next s label = some after) first labels last → Holds last → Goal last) :
    ∃ last, Run (fun s label after => allowed s label = true ∧ next s label = some after) first labels last ∧
      Goal last := exists_of_foldlM Holds passed (fun _ _ _ => allowing_eq_some.mp) implies

theorem invariant (Inv : σ → Prop) (keep : ∀ s label next, Inv s → Step s label next → Inv next)
    (run : Run Step first labels last) (start : Inv first) : Inv last := by
  induction run with
  | nil => exact start
  | cons step _ ih => exact ih (keep _ _ _ start step)

/-- A property that every step keeps unless it is an exception holds until the first exception. -/
theorem holds_until {Exception : σ → α → Prop}
    (keep : ∀ s label next, Holds s → Step s label next → Holds next ∨ Exception s label)
    (run : Run Step first labels last) (start : Holds first) :
    Holds last ∨ ∃ before label after s, labels = before ++ label :: after ∧
      Run Step first before s ∧ Holds s ∧ Exception s label := by
  induction run with
  | nil => exact Or.inl start
  | cons step rest ih =>
    rcases keep _ _ _ start step with kept | broken
    · rcases ih kept with last | ⟨before, label, after, s, shape, run, held, exception⟩
      · exact Or.inl last
      · exact Or.inr ⟨_ :: before, label, after, s, by rw [shape]; rfl, .cons step run, held, exception⟩
    · exact Or.inr ⟨[], _, _, _, rfl, .nil _, start, broken⟩

end Run

/-- A property that a step keeps if and only if the step is good holds throughout if and only if every step is good. -/
theorem foldl_holds_iff {σ α : Type} {step : σ → α → σ} {first : σ} {Holds : σ → Prop} {Good : σ → α → Prop}
    (start : Holds first)
    (once : ∀ s label, Holds s → (Holds (step s label) ↔ Good s label)) (labels : List α) :
    (∀ before, before <+: labels → Holds (before.foldl step first)) ↔
      ∀ before label, before ++ [label] <+: labels → Good (before.foldl step first) label := by
  constructor
  · intro holds before label begins
    have next := holds _ begins
    rw [List.foldl_append] at next
    exact (once _ label (holds before ((List.prefix_append _ _).trans begins))).mp next
  · intro good before
    induction before using List.reverseRecOn with
    | nil => exact fun _ => start
    | append_singleton before label ih =>
      intro begins
      rw [List.foldl_append]
      exact (once _ label (ih ((List.prefix_append _ _).trans begins))).mpr (good before label begins)

end Phantom.Lib
