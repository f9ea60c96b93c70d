import Phantom.Lib.Frontier
import Phantom.Timeline.Build
import Phantom.Timeline.Frames

namespace Phantom.Timeline

open Phantom.Lib Phantom.Matrix Phantom.Rooms Action Function
open Phantom.StateRes (RoomVersionId RoomVersion)

/-- The rooms as graphs: which rooms have a number, what they end in, and for each accepted event its room
    and the events that it follows. -/
structure RoomGraph where
  shortroomids : RoomId → Option ShortRoomId
  pduleaves : RoomId → Finset EventId
  events : EventId → Option (RoomId × List EventId)

namespace RoomGraph

variable (graph : RoomGraph)

def growth : Growth EventId := fun id => (graph.events id).map Prod.snd

variable (roomId : RoomId)

def InRoom (id : EventId) : Prop :=
  ∃ previous, graph.events id = some (roomId, previous)

structure Covered (graph : RoomGraph) : Prop where
  numbered : ∀ roomId id, graph.InRoom roomId id → graph.shortroomids roomId ≠ none
  held : ∀ roomId, ∀ leaf ∈ graph.pduleaves roomId, graph.InRoom roomId leaf
  covers : ∀ roomId, graph.growth.Covers (graph.InRoom roomId) (graph.pduleaves roomId)

def append (id : EventId) (previous : List EventId)
    (leafs : Finset EventId) : RoomGraph :=
  { graph with
    pduleaves := Function.update graph.pduleaves roomId leafs
    events := Function.update graph.events id (some (roomId, previous)) }

def number (short : ShortRoomId) : RoomGraph :=
  { graph with shortroomids := Function.update graph.shortroomids roomId (some short) }

section Append

variable {g : RoomGraph} {roomId other : RoomId} {id node : EventId} {prev : List EventId}
variable {leafs : Finset EventId}

theorem events_append_self : (g.append roomId id prev leafs).events id = some (roomId, prev) := update_self ..

theorem events_append_other (ne : node ≠ id) :
    (g.append roomId id prev leafs).events node = g.events node := update_of_ne ne ..

theorem pduleaves_append_self : (g.append roomId id prev leafs).pduleaves roomId = leafs := update_self ..

theorem pduleaves_append_other (ne : other ≠ roomId) :
    (g.append roomId id prev leafs).pduleaves other = g.pduleaves other := update_of_ne ne ..

theorem inRoom_append (new : g.events id = none) (inside : g.InRoom other node) :
    (g.append roomId id prev leafs).InRoom other node := by
  obtain ⟨followed, found⟩ := inside
  have ne : node ≠ id := by
    rintro rfl
    cases new.symm.trans found
  exact ⟨followed, (events_append_other ne).trans found⟩

theorem of_inRoom_append (inside : (g.append roomId id prev leafs).InRoom other node) :
    (node = id ∧ other = roomId) ∨ g.InRoom other node := by
  obtain ⟨followed, found⟩ := inside
  by_cases same : node = id
  · grind [events_append_self]
  · rw [events_append_other same] at found
    exact Or.inr ⟨followed, found⟩

theorem growth_append (new : g.events id = none) (followed : List EventId) (found : g.growth node = some followed) :
    (g.append roomId id prev leafs).growth node = some followed := by
  have ne : node ≠ id := by
    rintro rfl
    rw [growth, new] at found
    cases found
  rw [growth, events_append_other ne]
  exact found

theorem Covered.append (covered : g.Covered) (new : g.events id = none)
    (numbered : g.shortroomids roomId ≠ none) (added : id ∈ leafs)
    (known : ∀ leaf ∈ leafs, leaf = id ∨ leaf ∈ g.pduleaves roomId)
    (kept : ∀ leaf ∈ g.pduleaves roomId, leaf ∈ leafs ∨ leaf ∈ prev) : (g.append roomId id prev leafs).Covered where
  numbered other node inside := by
    rcases of_inRoom_append inside with ⟨_, rfl⟩ | inside
    · exact numbered
    · exact covered.numbered other node inside
  held other leaf mem := by
    by_cases same : other = roomId
    · subst same
      rw [pduleaves_append_self] at mem
      rcases known leaf mem with rfl | old
      · exact ⟨prev, events_append_self⟩
      · exact inRoom_append new (covered.held other leaf old)
    · grind [pduleaves_append_other, inRoom_append, Covered.held]
  covers other := by
    have grown : ∀ node followed, g.growth node = some followed →
        (g.append roomId id prev leafs).growth node = some followed :=
      fun _ followed found => growth_append new followed found
    by_cases same : other = roomId
    · subst same
      have follows : (g.append other id prev leafs).growth id = some prev := by
        rw [growth, events_append_self]
        rfl
      rw [pduleaves_append_self]
      apply (covered.covers other).add grown follows added kept
      grind [of_inRoom_append]
    · rw [pduleaves_append_other same]
      intro node inside
      rcases of_inRoom_append inside with ⟨_, here⟩ | inside
      · exact absurd here same
      · exact (covered.covers other).mono grown node inside

theorem Covered.number (covered : g.Covered) (short : ShortRoomId) : (g.number roomId short).Covered where
  numbered other node inside := by
    by_cases same : other = roomId
    · subst same
      have numbered : (g.number other short).shortroomids other = some short := update_self ..
      rw [numbered]
      exact nofun
    · have unchanged : (g.number roomId short).shortroomids other = g.shortroomids other := update_of_ne same ..
      rw [unchanged]
      exact covered.numbered other node inside
  held := covered.held
  covers := covered.covers

theorem Covered.leaves_of_unnumbered (covered : g.Covered) (unnumbered : g.shortroomids roomId = none) :
    g.pduleaves roomId = ∅ := by
  apply Finset.eq_empty_of_forall_notMem
  intro leaf mem
  exact covered.numbered roomId leaf (covered.held roomId leaf mem) unnumbered

end Append

end RoomGraph

end Phantom.Timeline
