import Mathlib.Data.Finset.Basic

namespace Phantom.Lib

open Relation

/-- A graph that grows: for each node that was added, the nodes that it was added after. -/
abbrev Growth (α : Type) := α → Option (List α)

namespace Growth

variable {α : Type} {growth more : Growth α} {Node More : α → Prop} {frontier next : Finset α}
variable {node older newer : α} {previous prev : List α}

def Before (growth : Growth α) (older newer : α) : Prop := ∃ previous, growth newer = some previous ∧ older ∈ previous

def Reaches (growth : Growth α) (older newer : α) : Prop := ReflTransGen growth.Before older newer

/-- Every node of a kind is on the frontier or an ancestor of a node there. -/
def Covers (growth : Growth α) (Node : α → Prop) (frontier : Finset α) : Prop :=
  ∀ node, Node node → ∃ leaf ∈ frontier, growth.Reaches node leaf

theorem Reaches.mono (reaches : growth.Reaches older newer)
    (grown : ∀ node prev, growth node = some prev → more node = some prev) : more.Reaches older newer := by
  have more : growth.Before ≤ more.Before := by
    intro older newer before
    obtain ⟨prev, found, mem⟩ := before
    exact ⟨prev, grown newer prev found, mem⟩
  exact ReflTransGen.mono more older newer reaches

section

variable (covers : growth.Covers Node frontier) (grown : ∀ node prev, growth node = some prev → more node = some prev)
include covers grown

theorem Covers.mono : more.Covers Node frontier := by
  intro node isNode
  obtain ⟨leaf, mem, reaches⟩ := covers node isNode
  exact ⟨leaf, mem, reaches.mono grown⟩

theorem Covers.add (added : more node = some prev) (mem : node ∈ next)
    (kept : ∀ leaf ∈ frontier, leaf ∈ next ∨ leaf ∈ prev) (kinds : ∀ other, More other → other = node ∨ Node other) :
    more.Covers More next := by
  intro other isMore
  rcases kinds other isMore with rfl | isNode
  · exact ⟨other, mem, .refl⟩
  · obtain ⟨leaf, inFrontier, reaches⟩ := covers.mono grown other isNode
    rcases kept leaf inFrontier with inNext | superseded
    · exact ⟨leaf, inNext, reaches⟩
    · exact ⟨node, mem, reaches.tail ⟨prev, added, superseded⟩⟩

end

theorem not_reaches_of_closed {closed : α → Prop} (inside : closed newer) (outside : ¬ closed older)
    (ancestors : ∀ node prev, closed node → growth node = some prev → ∀ older ∈ prev, closed older) :
    ¬ growth.Reaches older newer := by
  intro reaches
  induction reaches using ReflTransGen.head_induction_on with
  | refl => exact outside inside
  | head before _ ih =>
    obtain ⟨prev, found, mem⟩ := before
    grind

end Growth

end Phantom.Lib
