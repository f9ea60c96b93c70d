import Phantom.Lib.Schedule

namespace Phantom.Lib

section Alike

variable {ε α : Type}

/-- The same outcome, up to which of several like errors is reported. -/
def Alike (same : ε → ε → Prop) (left right : Outcome ε α) : Prop :=
  left = right ∨ ∃ first second, left = .fail first ∧ right = .fail second ∧ same first second

theorem Alike.eq_ok {same : ε → ε → Prop} {left : Outcome ε α} {value : α}
    (alike : Alike same left (.ok value)) : left = .ok value := by
  rcases alike with equal | ⟨_, _, _, impossible, _⟩
  · exact equal
  · cases impossible

end Alike

/-- A family of calls has one outcome: each of them ends alike with `result` or is still running,
    the latter only within some bound of turns or with a buffer of width zero. -/
structure Settles {ι ε α : Type} (fuel width : ι → Nat) (same : ε → ε → Prop) (call : ι → Outcome ε α)
    (result : Outcome ε α) : Prop where
  finishes : result.Finishes
  bounded : ∃ bound, ∀ index, Alike same (call index) result ∨
    (call index = .error .unfinished ∧ (fuel index < bound ∨ width index = 0))

namespace Settles

variable {ι ε α β : Type} {fuel width : ι → Nat} {same : ε → ε → Prop}
variable {call : ι → Outcome ε α} {next : ι → α → Outcome ε β}

theorem of_eq {result : Outcome ε α} (finishes : result.Finishes)
    (equal : ∀ index, call index = result) : Settles fuel width same call result :=
  ⟨finishes, 0, fun index => Or.inl (Or.inl (equal index))⟩

theorem bind {value : α} {result : Outcome ε β} (first : Settles fuel width same call (.ok value))
    (second : Settles fuel width same (fun index => next index value) result) :
    Settles fuel width same (fun index => call index >>= next index) result := by
  obtain ⟨_, early, first⟩ := first
  obtain ⟨finishes, late, second⟩ := second
  refine ⟨finishes, max early late, ?_⟩
  grind [Outcome.ok_bind, Alike.eq_ok, Outcome.error_bind]

theorem bind_error {failure : Failure ε} (first : Settles fuel width same call (.error failure)) :
    Settles fuel width same (fun index => call index >>= next index) (.error failure) := by
  obtain ⟨finishes, bound, first⟩ := first
  refine ⟨fun failed => finishes (by rw [Except.error.inj failed]), bound, ?_⟩
  intro index
  rcases first index with alike | ⟨pending, reason⟩
  · rcases alike with equal | ⟨left, right, failed, others, alike⟩
    · simp only [equal, Outcome.error_bind]
      exact Or.inl (Or.inl rfl)
    · simp only [failed, Outcome.fail_bind]
      cases others
      exact Or.inl (Or.inr ⟨left, right, rfl, rfl, alike⟩)
  · grind [Outcome.error_bind]

theorem exists_bind_ok {value : α} (first : Settles fuel width same call (.ok value))
    (second : ∃ result, Settles fuel width same (fun index => next index value) result) :
    ∃ result, Settles fuel width same (fun index => call index >>= next index) result := by
  obtain ⟨result, second⟩ := second
  exact ⟨result, first.bind second⟩

theorem exists_bind (first : ∃ result, Settles fuel width same call result)
    (second : ∀ value, ∃ result, Settles fuel width same (fun index => next index value) result) :
    ∃ result, Settles fuel width same (fun index => call index >>= next index) result := by
  obtain ⟨result, first⟩ := first
  cases result with
  | error failure => exact ⟨_, first.bind_error⟩
  | ok value => exact first.exists_bind_ok (second value)

theorem exists_of_index (settles : ι → ∃ result, Settles fuel width same call result) :
    ∃ result, Settles fuel width same call result := by
  by_cases some : Nonempty ι
  · exact settles some.some
  · exact ⟨.error (.panic ""), nofun, 0, fun index => absurd ⟨index⟩ some⟩

/-- The outputs of a buffered stream come in any order; what follows does not depend on it. -/
theorem exists_bind_unordered {completion : ι → Completion} {items : ι → List α} {all : List α}
    {next : ι → List α → Outcome ε β} (perm : ∀ index, (items index).Perm all)
    (second : ∀ outputs : ι → List α, (∀ index, (outputs index).Perm all) →
      ∃ result, Settles fuel width same (fun index => next index (outputs index)) result) :
    ∃ result, Settles fuel width same
      (fun index => (completion index).unordered (width index) (items index) >>= next index) result := by
  have outputs : ∀ index, ∃ outputs, outputs.Perm all ∧
      (((completion index).unordered (width index) (items index) : Outcome ε (List α)) = .ok outputs ∨
        (((completion index).unordered (width index) (items index) : Outcome ε (List α)) =
          .error .unfinished ∧ width index = 0)) := by
    intro index
    rcases (completion index).unordered_cases (ε := ε) (width index) (items index) with
      ⟨outputs, returned, reordered⟩ | pending
    · exact ⟨outputs, reordered.trans (perm index), Or.inl returned⟩
    · exact ⟨all, List.Perm.refl _, Or.inr pending⟩
  choose outputs reordered returned using outputs
  obtain ⟨result, finishes, bound, settled⟩ := second outputs reordered
  refine ⟨result, finishes, bound, ?_⟩
  grind [Outcome.ok_bind, Outcome.error_bind]

end Settles

end Phantom.Lib
