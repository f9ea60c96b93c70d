import Mathlib.Algebra.GroupWithZero.Nat
import Mathlib.Algebra.Order.BigOperators.Group.List
import Mathlib.Order.WellFoundedSet
import Phantom.StateRes.RoomVersion

namespace Phantom.StateRes

open Phantom.Matrix Relation

/-- The events that `event_fetch` finds, each under its own ID. -/
structure EventStore where
  fetch : EventId → Option Event
  fetch_id : ∀ {id event}, fetch id = some event → event.eventId = id

/-- A relation without cycles between finitely many things is well founded. -/
theorem wellFounded_of_finite {α : Type} {r : α → α → Prop} (finite : {newer | ∃ older, r older newer}.Finite)
    (irreflexive : ∀ item, ¬ TransGen r item item) : WellFounded r := by
  have order : IsStrictOrder α (TransGen r) :=
    { irrefl := irreflexive
      trans := fun _ _ _ first second => first.trans second }
  have descends : {newer | ∃ older, r older newer}.WellFoundedOn (TransGen r) := finite.wellFoundedOn
  have accessible : ∀ newer ∈ {newer | ∃ older, r older newer}, Acc r newer := by
    intro newer has
    refine descends.induction has ?_
    intro newer _ ih
    refine ⟨newer, fun older related => ?_⟩
    by_cases deeper : ∃ oldest, r oldest older
    · exact ih older deeper (.single related)
    · exact ⟨older, fun oldest related => absurd ⟨oldest, related⟩ deeper⟩
  exact ⟨fun newer => ⟨newer, fun older related => (accessible newer ⟨older, related⟩).inv related⟩⟩

namespace EventStore

variable (store : EventStore)

def authEvents (id : EventId) : List EventId :=
  ((store.fetch id).map Event.authEvents).getD []

def AuthOf (older newer : EventId) : Prop := older ∈ store.authEvents newer

def Reaches (newer older : EventId) : Prop := ReflTransGen store.AuthOf older newer

/-- A finite event graph in which no event is among its own ancestors. -/
structure Acyclic (store : EventStore) : Prop where
  finite : Set.Finite {id | (store.fetch id).isSome}
  irreflexive : ∀ id, ¬ TransGen store.AuthOf id id

variable {store : EventStore} {older newer : EventId}

theorem isSome_of_authOf (auth : store.AuthOf older newer) : (store.fetch newer).isSome := by
  unfold AuthOf authEvents at auth
  cases found : store.fetch newer with
  | none => rw [found] at auth; cases auth
  | some event => rfl

theorem Acyclic.wellFounded (acyclic : store.Acyclic) : WellFounded store.AuthOf :=
  wellFounded_of_finite (acyclic.finite.subset fun _ ⟨_, auth⟩ => isSome_of_authOf auth) acyclic.irreflexive

theorem exists_size (wellFounded : WellFounded store.AuthOf) :
    ∃ size : EventId → Nat, ∀ id, ((store.authEvents id).map size).sum < size id := by
  refine ⟨wellFounded.fix fun id size =>
    1 + ((store.authEvents id).attach.map fun auth => size auth.1 auth.2).sum, ?_⟩
  intro id
  rw [wellFounded.fix_eq]
  rw [List.attach_map_val]
  omega

theorem size_lt {size : EventId → Nat} (shrinks : ∀ id, ((store.authEvents id).map size).sum < size id)
    (auth : older ∈ store.authEvents newer) : size older < size newer := by
  have single : size older ≤ ((store.authEvents newer).map size).sum :=
    List.single_le_sum (fun _ _ => Nat.zero_le _) _ (List.mem_map_of_mem auth)
  exact lt_of_le_of_lt single (shrinks newer)

theorem authEvents_of_fetch {id : EventId} {event : Event} (stored : store.fetch id = some event) :
    store.authEvents id = event.authEvents := by
  rw [authEvents, stored]
  rfl

end EventStore

end Phantom.StateRes
