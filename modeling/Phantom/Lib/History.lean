import Mathlib.Data.List.Induction

namespace Phantom.Lib

/-- Where each label keeps a property exactly if it is a fine one, the property holds at every point of a
    history exactly if every label of it is. -/
theorem holds_throughout_iff {α : Type} {Holds : List α → Prop} {Fine : List α → α → Prop} (start : Holds [])
    (step : ∀ done label, Holds done → (Holds (done ++ [label]) ↔ Fine done label)) (labels : List α) :
    (∀ done, done <+: labels → Holds done) ↔ ∀ done label, done ++ [label] <+: labels → Fine done label := by
  constructor
  · grind [List.prefix_append]
  · intro fine done begins
    induction done using List.reverseRecOn with
    | nil => exact start
    | append_singleton done label ih =>
      grind [List.prefix_append]

end Phantom.Lib
