import Mathlib.Data.Finset.Card

namespace Phantom.Lib.Search

open Relation

variable {α : Type} {next : α → List α} {start : α}

def Step (next : α → List α) (node other : α) : Prop := other ∈ next node

/-- What was found lies behind the start, and what is behind a node that was looked at was found. -/
structure Partway (next : α → List α) (start : α) (found todo : List α) : Prop where
  sound : ∀ node ∈ found, TransGen (Step next) start node
  waits : ∀ node ∈ todo, node = start ∨ node ∈ found
  closed : ∀ node, node = start ∨ node ∈ found → node ∈ todo ∨ ∀ other ∈ next node, other ∈ found

theorem partway_start : Partway next start [] [start] where
  sound := nofun
  waits := fun node mem => Or.inl (List.mem_singleton.mp mem)
  closed := by
    grind

variable [DecidableEq α]

def visit (held : List α × List α) (node : α) : List α × List α :=
  if node ∈ held.1 then held else (held.1 ++ [node], held.2 ++ [node])

/-- A search from the nodes that wait, which does not look at the nodes that were found already. -/
def search (next : α → List α) : ℕ → List α → List α → Option (List α)
  | 0, _, _ => none
  | _ + 1, found, [] => some found
  | fuel + 1, found, node :: todo =>
    let held := (next node).foldl visit (found, todo)
    search next fuel held.1 held.2

section Visit

variable {found todo nodes : List α} {node : α}

theorem mem_visit_found : node ∈ ((nodes.foldl visit (found, todo)).1) ↔ node ∈ found ∨ node ∈ nodes := by
  induction nodes generalizing found todo with
  | nil => simp
  | cons first nodes ih =>
    rw [List.foldl_cons, visit]
    by_cases known : first ∈ found
    · rw [if_pos known, ih, List.mem_cons]
      constructor
      · exact Or.imp_right Or.inr
      · rintro (mem | rfl | mem)
        · exact Or.inl mem
        · exact Or.inl known
        · exact Or.inr mem
    · rw [if_neg known, ih, List.mem_append, List.mem_singleton, List.mem_cons, or_assoc]

theorem mem_visit_todo (mem : node ∈ (nodes.foldl visit (found, todo)).2) :
    node ∈ todo ∨ node ∈ nodes ∧ node ∉ found := by
  induction nodes generalizing found todo with
  | nil => exact Or.inl mem
  | cons first nodes ih =>
    rw [List.foldl_cons, visit] at mem
    by_cases known : first ∈ found
    · grind
    · rw [if_neg known] at mem
      rcases ih mem with earlier | ⟨later, missing⟩
      · rcases List.mem_append.mp earlier with earlier | same
        · exact Or.inl earlier
        · grind [List.mem_singleton]
      · grind

theorem visit_todo_kept (mem : node ∈ todo) : node ∈ (nodes.foldl visit (found, todo)).2 := by
  induction nodes generalizing found todo with
  | nil => exact mem
  | cons first nodes ih =>
    grind [visit]

theorem visit_found_waits (mem : node ∈ (nodes.foldl visit (found, todo)).1) :
    node ∈ found ∨ node ∈ (nodes.foldl visit (found, todo)).2 := by
  induction nodes generalizing found todo with
  | nil => exact Or.inl mem
  | cons first nodes ih =>
    grind [visit_todo_kept, visit]

theorem visit_measure (domain : Finset α) (inside : ∀ node ∈ nodes, node ∈ domain) :
    (nodes.foldl visit (found, todo)).2.length +
        (domain.filter fun node => node ∉ (nodes.foldl visit (found, todo)).1).card ≤
      todo.length + (domain.filter fun node => node ∉ found).card := by
  induction nodes generalizing found todo with
  | nil => exact Nat.le_refl _
  | cons first nodes ih =>
    rw [List.foldl_cons, visit]
    by_cases known : first ∈ found
    · rw [if_pos known]
      exact ih fun node mem => inside node (List.mem_cons_of_mem _ mem)
    · rw [if_neg known]
      have rest := @ih (found ++ [first]) (todo ++ [first]) fun node mem => inside node (List.mem_cons_of_mem _ mem)
      have fewer : (domain.filter fun node => node ∉ found ++ [first]).card <
          (domain.filter fun node => node ∉ found).card := by
        apply Finset.card_lt_card
        rw [Finset.ssubset_iff_of_subset]
        · refine ⟨first, Finset.mem_filter.mpr ⟨inside first List.mem_cons_self, known⟩, ?_⟩
          simp
        · grind
      grind

end Visit

variable {fuel : ℕ} {found todo result : List α} {node : α}

theorem partway_visit (partway : Partway next start found (node :: todo)) :
    Partway next start ((next node).foldl visit (found, todo)).1 ((next node).foldl visit (found, todo)).2 where
  sound := by
    intro other mem
    rcases mem_visit_found.mp mem with earlier | later
    · exact partway.sound other earlier
    · rcases partway.waits node List.mem_cons_self with rfl | earlier
      · exact .single later
      · exact .tail (partway.sound node earlier) later
  waits := by
    intro other mem
    rcases mem_visit_todo mem with earlier | ⟨later, _⟩
    · grind [Partway.waits, mem_visit_found]
    · exact Or.inr (mem_visit_found.mpr (Or.inr later))
  closed := by
    grind [visit_found_waits, Partway.closed, mem_visit_found, visit_todo_kept]

theorem mem_of_partway (partway : Partway next start found todo) (ran : search next fuel found todo = some result) :
    node ∈ result ↔ TransGen (Step next) start node := by
  induction fuel generalizing found todo with
  | zero => cases ran
  | succ fuel ih =>
    cases todo with
    | nil =>
      cases ran
      constructor
      · exact partway.sound node
      · intro behind
        clear ih
        induction behind with
        | single step => exact ((partway.closed start (Or.inl rfl)).resolve_left nofun) _ step
        | tail _ step inside => exact ((partway.closed _ (Or.inr inside)).resolve_left nofun) _ step
    | cons first todo => exact ih (partway_visit partway) ran

/-- A finished search from a node has found what lies one or more steps behind it. -/
theorem mem_search (ran : search next fuel [] [start] = some result) :
    node ∈ result ↔ TransGen (Step next) start node := mem_of_partway partway_start ran

theorem search_finishes (domain : Finset α) (inside : ∀ node, ∀ other ∈ next node, other ∈ domain)
    (enough : todo.length + (domain.filter fun node => node ∉ found).card < fuel) :
    ∃ result, search next fuel found todo = some result := by
  induction fuel generalizing found todo with
  | zero => omega
  | succ fuel ih =>
    cases todo with
    | nil => exact ⟨found, rfl⟩
    | cons node todo =>
      apply ih
      have measure := @visit_measure α _ found todo (next node) domain (inside node)
      rw [List.length_cons] at enough
      omega

end Phantom.Lib.Search
