import Phantom.StateRes.Determinism
import Phantom.StateRes.ResolveFailures

namespace Phantom.StateRes

open Phantom.Lib Phantom.Matrix

structure Fetchable (store : EventStore) (input : ResolveInput) : Prop where
  stateSets : ∀ set ∈ input.stateSets, ∀ key id, set.lookup key = some id → (store.fetch id).isSome
  authChainSets : ∀ chain ∈ input.authChainSets, ∀ id ∈ chain, (store.fetch id).isSome
  authEvents : ∀ id, ∀ auth ∈ store.authEvents id, (store.fetch auth).isSome

section Resolve

variable {ruma : Ruma} {store : EventStore} {eventExists : EventId → Bool} {schedule : Schedule}
  {fuel parallelFetches : Nat}
variable {subgraph : Finset EventId} {input : ResolveInput} {roomVersion : RoomVersionId}

variable {rv : RoomVersion} {id : EventId}

variable (ruma store eventExists rv input) in
/-- The contents that the resolution may come to read can be read: those of the full conflicted set
    with the events they name and, where the passes start from it, those of the agreed state. -/
structure ContentsReadable : Prop where
  checked : ∀ id event, InFullConflictedSet store eventExists rv input id → store.fetch id = some event →
    Checkable ruma rv store event
  agreed : rv.stateResV21 = false → ∀ key id event, Agreed input.stateSets key id →
    store.fetch id = some event → Readable ruma rv key.1 event.content

theorem ContentsReadable.initial (contents : ContentsReadable ruma store eventExists input rv)
    (fetchable : Fetchable store input) :
    ReadableEntries ruma rv store (if rv.stateResV21 then ∅ else (separate schedule.separate input.stateSets).1) := by
  intro key id held
  split at held
  · cases held
  · next earlier =>
    have agreed := separate_clean.mp held
    obtain ⟨set, listed, entered⟩ := agreed.1
    obtain ⟨event, stored⟩ := Option.isSome_iff_exists.mp (fetchable.stateSets set listed key id entered)
    exact ⟨event, stored, contents.agreed (by simpa using earlier) key id event agreed stored⟩

end Resolve

namespace Sample

open Phantom.Matrix.Sample

end Sample

end Phantom.StateRes
