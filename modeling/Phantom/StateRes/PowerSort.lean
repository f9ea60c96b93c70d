import Phantom.StateRes.EventAuth.Selection
import Phantom.StateRes.PowerGraph
import Phantom.StateRes.SortInvariant

namespace Phantom.StateRes

open Phantom.Lib Phantom.Matrix

structure PowerSortSchedule where
  graphKeys : HashOrder EventId
  powerLevels : Completion
  authEvents : EventId → Completion
  sort : SortSchedule EventId

section PowerLevel

variable (ruma : Ruma) (rv : RoomVersion) (store : EventStore)

def isRoomCreator (create : Event) (sender : UserId) : Bool :=
  if rv.useRoomCreateSender then create.sender = sender
  else Json.optionalField ["creator"] "creator" ruma.decodeUserId create.content = some (some sender)

def isPrivilegedSender (event : Event) : Bool :=
  ((createEventIdOf ruma event.roomId).bind store.fetch).any
    (fun create => event.sender ∈ privilegedCreators ruma rv create)

def powerLevelOf (event : Option Event) (authEvents : List Event) : Outcome Error UserPower :=
  if rv.explicitlyPrivilegeRoomCreators ∧ event.any (isPrivilegedSender ruma rv store) then .ok .infinite
  else match authEvents.find? (fun auth => isTypeAndKey auth .roomPowerLevels "") with
    | none =>
      let isCreator := (authEvents.find? fun auth => isTypeAndKey auth .roomCreate "").any
        (fun create => event.any fun event => isRoomCreator ruma rv create event.sender)
      .ok (.level (if isCreator then 100 else 0))
    | some levels => do
      let content ← parse ruma "PowerLevelsContentFields"
        (deserializeLegacyPowerLevelsContentFields ruma) levels.content
      return .level ((event.bind fun event => content.getUserPower event.sender).getD content.usersDefault)

def getPowerLevelForSender (completion : Completion) (parallelFetches : Nat) (id : EventId) :
    Outcome Error UserPower := do
  let fetched ← completion.unordered (min parallelFetches 5) (store.authEvents id)
  powerLevelOf ruma rv store (store.fetch id) (fetched.filterMap store.fetch)

def insertPower (power : EventId → Outcome Error UserPower) (eventToPl : HashMap EventId UserPower)
    (id : EventId) : Outcome Error (HashMap EventId UserPower) := do
  return eventToPl.insert id (← power id)

def powerKey (eventToPl : HashMap EventId UserPower) (id : EventId) : Outcome Error (UserPower × Nat) := do
  let power ← .ofOption (.notFound "") (eventToPl.lookup id)
  let event ← .ofOption (.notFound "") (store.fetch id)
  return (power, event.originServerTs)

def reverseTopologicalPowerSort (schedule : PowerSortSchedule) (fuel parallelFetches : Nat)
    (eventsToSort : List EventId) (authDiff : Finset EventId) : Outcome Error (List EventId) := do
  let graph ← powerGraph store authDiff fuel eventsToSort
  let completed ← schedule.powerLevels.unordered parallelFetches (schedule.graphKeys.list graph.keys)
  let eventToPl ← completed.foldlM (insertPower fun id =>
    getPowerLevelForSender ruma rv store (schedule.authEvents id) parallelFetches id) ∅
  lexicographicalTopologicalSort schedule.sort (powerKey store eventToPl) graph fuel

theorem mem_of_reverseTopologicalPowerSort {ruma : Ruma} {rv : RoomVersion} {store : EventStore}
    {schedule : PowerSortSchedule} {fuel parallelFetches : Nat} {events sorted : List EventId}
    {authDiff : Finset EventId} {id : EventId}
    (returned : reverseTopologicalPowerSort ruma rv store schedule fuel parallelFetches events authDiff = .ok sorted)
    (roots : ∀ event ∈ events, event ∈ authDiff) (mem : id ∈ sorted) : id ∈ authDiff := by
  obtain ⟨g, built, returned⟩ := Outcome.bind_eq_ok.mp returned
  obtain ⟨completed, _, returned⟩ := Outcome.bind_eq_ok.mp returned
  obtain ⟨eventToPl, _, returned⟩ := Outcome.bind_eq_ok.mp returned
  have found := ((powerGraph_spec built).nodes id).mp (mem_of_lexicographicalTopologicalSort returned mem)
  exact found.mem_authDiff roots

end PowerLevel

end Phantom.StateRes
