import Phantom.StateRes.AuthLoop
import Phantom.StateRes.PowerSort
import Phantom.StateRes.Subgraph

namespace Phantom.StateRes

open Phantom.Lib Phantom.Matrix

/-- The orders that `resolve` leaves open: of its hash collections and of its fetches. -/
structure Schedule where
  separate : SeparateSchedule
  conflicting : HashOrder TypeStateKey
  subgraph : HashOrder EventId
  authChains : ChainSchedule
  conflictedSet : HashOrder EventId
  subgraphSet : HashOrder EventId
  existing : Completion
  allConflicted : HashOrder EventId
  controlEvents : Completion
  powerSort : PowerSortSchedule
  control : AuthSchedule
  remaining : HashOrder EventId
  mainline : MainlineSchedule
  left : AuthSchedule

structure ResolveInput where
  stateSets : List (StateMap EventId)
  authChainSets : List (Finset EventId)

section Resolve

variable (ruma : Ruma) (store : EventStore) (eventExists : EventId → Bool) (schedule : Schedule)
  (fuel parallelFetches : Nat)

def isPowerEventId (id : EventId) : Bool := (store.fetch id).any (isPowerEvent ruma)

def subgraphOf (rv : RoomVersion) (conflictedSet : Finset EventId) : Outcome Error (Finset EventId) :=
  if rv.stateResV21 then conflictedStateSubgraph store conflictedSet schedule.subgraph fuel else .ok ∅

def conflictedSetOf (conflicting : StateMap (List EventId)) : Finset EventId :=
  ((schedule.conflicting.iterate conflicting).flatMap Prod.snd).toFinset

def allConflictedOf (authChainSets : List (Finset EventId)) (conflictedSet subgraph : Finset EventId) :
    Outcome Error (Finset EventId) := do
  let authChainDiff := getAuthChainDiff schedule.authChains authChainSets ++
    schedule.conflictedSet.list conflictedSet ++ schedule.subgraphSet.list subgraph
  let completed ← schedule.existing.unordered parallelFetches authChainDiff
  return (completed.filter eventExists).toFinset

def resolveConflicted (rv : RoomVersion) (clean : StateMap EventId) (allConflicted : Finset EventId) :
    Outcome Error (StateMap EventId) := do
  let completed ← schedule.controlEvents.unordered parallelFetches
    (schedule.allConflicted.list allConflicted)
  let sortedControlLevels ← reverseTopologicalPowerSort ruma rv store schedule.powerSort fuel
    parallelFetches (completed.filter (isPowerEventId ruma store)) allConflicted
  let initialState := if rv.stateResV21 then ∅ else clean
  let resolvedControl ← iterativeAuthCheck ruma rv store schedule.control parallelFetches
    sortedControlLevels initialState
  let eventsToResolve := (schedule.remaining.list allConflicted).filter
    (fun id => id ∉ sortedControlLevels)
  let sortedLeftEvents ← mainlineSort store schedule.mainline fuel parallelFetches eventsToResolve
    (resolvedControl.lookup (.roomPowerLevels, ""))
  let resolvedState ← iterativeAuthCheck ruma rv store schedule.left parallelFetches sortedLeftEvents
    resolvedControl
  return clean ∪ resolvedState

def resolve (roomVersion : RoomVersionId) (input : ResolveInput) : Outcome Error (StateMap EventId) := do
  let rv ← RoomVersion.new roomVersion
  let separated := separate schedule.separate input.stateSets
  if separated.2.keys = ∅ then return separated.1
  else
    let conflictedSet := conflictedSetOf schedule separated.2
    let subgraph ← subgraphOf store schedule fuel rv conflictedSet
    let allConflicted ← allConflictedOf eventExists schedule parallelFetches input.authChainSets
      conflictedSet subgraph
    resolveConflicted ruma store schedule fuel parallelFetches rv separated.1 allConflicted

end Resolve

namespace Sample

open Phantom.Matrix.Sample

def idOrder : HashOrder EventId := .ascending id Function.injective_id

def keyOrder : HashOrder TypeStateKey :=
  .ascending (toLex : TypeStateKey → EventType ×ₗ String) toLex.injective

def authSchedule : AuthSchedule where
  events := .inOrder
  authIds := idOrder
  authEvents := .inOrder
  thirdParty _ := keyOrder

def schedule (powerLevels : Completion) : Schedule where
  separate := { stateSets := fun _ => keyOrder, occurrences := keyOrder, occurrencesOf := fun _ => idOrder }
  conflicting := keyOrder
  subgraph := idOrder
  authChains := { chains := fun _ => idOrder, counts := idOrder }
  conflictedSet := idOrder
  subgraphSet := idOrder
  existing := .inOrder
  allConflicted := idOrder
  controlEvents := .inOrder
  powerSort := {
    graphKeys := idOrder, powerLevels := powerLevels, authEvents := fun _ => .inOrder,
    sort := { nodes := idOrder, edges := fun _ => idOrder, parents := fun _ => idOrder } }
  control := authSchedule
  remaining := idOrder
  mainline := { fetches := .inOrder, depths := .inOrder, keys := idOrder }
  left := authSchedule

def storeOf (events : List Event) : EventStore where
  fetch id := events.find? fun event => event.eventId = id
  fetch_id found := by simpa using List.find?_some found

theorem storeOf_finite (events : List Event) : Set.Finite {id | ((storeOf events).fetch id).isSome} := by
  refine (events.map Event.eventId).finite_toSet.subset ?_
  grind [storeOf]

def topic : TypeStateKey := (.other "m.room.topic" (by decide), "")

def topicEvent (eventId : String) : Event := event eventId alice topic.1 (some topic.2) [] ["$j"] ["$j"]

def agreedState : StateMap EventId :=
  HashMap.collect [((.roomCreate, ""), ⟨"$c"⟩), ((.roomMember, alice.asStr), ⟨"$j"⟩)]

def topicFork : ResolveInput where
  stateSets := [agreedState.insert topic ⟨"$s"⟩, agreedState.insert topic ⟨"$t"⟩]
  authChainSets := [∅, ∅]

def topicStore : EventStore :=
  storeOf [create, member "$j" alice alice "join" ["$c"] [], topicEvent "$s", topicEvent "$t"]

end Sample

end Phantom.StateRes
