import Phantom.StateRes.AuthLoop
import Phantom.StateRes.EventAuth.Finishes
import Phantom.StateRes.PowerSortSettles

namespace Phantom.StateRes

open Phantom.Lib Phantom.Matrix

section AuthLoop

variable {ruma : Ruma} {rv : RoomVersion} {store : EventStore} (authEvents : HashMap EventId Event)

def authEventsOf (store : EventStore) (events : List Event) : HashMap EventId Event :=
  HashMap.collect (((events.flatMap Event.authEvents).filterMap store.fetch).map
    (fun event => (event.eventId, event)))

theorem fetchAuthEvents_cases (store : EventStore) (schedule : AuthSchedule) (parallelFetches : Nat)
    (events : List Event) : fetchAuthEvents store schedule parallelFetches events = .ok (authEventsOf store events) ∨
    (fetchAuthEvents store schedule parallelFetches events = .error .unfinished ∧ parallelFetches = 0) := by
  unfold fetchAuthEvents
  dsimp only
  rcases schedule.authEvents.unordered_cases (ε := Error) parallelFetches
    (schedule.authIds.list (events.flatMap Event.authEvents).toFinset) with
    ⟨fetched, returned, perm⟩ | ⟨pending, zero⟩
  · left
    rw [returned, Outcome.ok_bind]
    refine congrArg Except.ok (HashMap.collect_congr ?_ ?_)
    · intro entry
      simp only [List.mem_map, List.mem_filterMap, perm.mem_iff, HashOrder.mem_list, List.mem_toFinset]
    · grind [EventStore.fetch_id]
  · exact Or.inr ⟨by rw [pending, Outcome.error_bind], zero⟩

theorem checkNext_finishes (schedule : AuthSchedule) (resolved : StateMap EventId) (event : Event) :
    (checkNext ruma rv store authEvents schedule resolved event).Finishes := by
  refine .bind (.ofOption _ _) fun stateKey => .bind ?_ fun authState =>
    (authCheck_finishes _ _ _).bind fun accepted => ?_
  · refine (authTypesForEvent_finishes _ _ _ _).bind fun _ => .bind (foldlM_finishes ?_) fun _ => .ok _
    intro current id _
    unfold insertAuthEvent
    split
    · exact .bind (.ofOption _ _) fun _ => .ok _
    · exact .ok _
  · cases accepted <;> exact .ok _

section

variable (ruma : Ruma) (rv : RoomVersion) (store : EventStore) (schedule : AuthSchedule)

def checkAll
    (eventsToCheck : List EventId) (unconflictedState : StateMap EventId) :
    Outcome Error (StateMap EventId) := do
  let events ← eventsToCheck.mapM (fetchOrNotFound store)
  events.foldlM (checkNext ruma rv store (authEventsOf store events) schedule) unconflictedState

theorem iterativeAuthCheck_cases
    (parallelFetches : Nat) (eventsToCheck : List EventId)
    (unconflictedState : StateMap EventId) :
    iterativeAuthCheck ruma rv store schedule parallelFetches eventsToCheck unconflictedState =
      checkAll ruma rv store schedule eventsToCheck unconflictedState ∨
    (iterativeAuthCheck ruma rv store schedule parallelFetches eventsToCheck unconflictedState =
      .error .unfinished ∧ parallelFetches = 0) := by
  unfold iterativeAuthCheck checkAll
  rcases schedule.events.ordered_cases (ε := Error) parallelFetches eventsToCheck with
    returned | ⟨pending, zero⟩
  · rw [returned, Outcome.ok_bind]
    cases fetched : eventsToCheck.mapM (fetchOrNotFound store) with
    | error failure => exact Or.inl rfl
    | ok events =>
      simp only [Outcome.ok_bind]
      rcases fetchAuthEvents_cases store schedule parallelFetches events with
        returned | ⟨pending, zero⟩
      · rw [returned]
        exact Or.inl rfl
      · rw [pending]
        exact Or.inr ⟨rfl, zero⟩
  · rw [pending]
    exact Or.inr ⟨rfl, zero⟩

end

theorem checkAll_finishes (schedule : AuthSchedule) (eventsToCheck : List EventId)
    (unconflictedState : StateMap EventId) :
    (checkAll ruma rv store schedule eventsToCheck unconflictedState).Finishes :=
  (mapM_finishes fun _ => .ofOption _ _).bind fun _ => foldlM_finishes fun _ _ _ => checkNext_finishes _ _ _ _

theorem iterativeAuthCheck_settles (ruma : Ruma) (rv : RoomVersion) {ι : Type}
    (schedule : ι → AuthSchedule) (fuel width : ι → Nat) (eventsToCheck : List EventId)
    (unconflictedState : StateMap EventId) : ∃ result, Settles fuel width SameJson
      (fun index => iterativeAuthCheck ruma rv store (schedule index) (width index) eventsToCheck
        unconflictedState) result := by
  refine Settles.exists_of_index ?_
  intro reference
  refine ⟨checkAll ruma rv store (schedule reference) eventsToCheck unconflictedState, checkAll_finishes _ _ _, 0, ?_⟩
  intro index
  exact (iterativeAuthCheck_cases ruma rv store (schedule index) (width index) eventsToCheck
    unconflictedState).imp Or.inl (And.imp_right Or.inr)

end AuthLoop

end Phantom.StateRes
