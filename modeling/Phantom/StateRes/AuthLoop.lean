import Phantom.StateRes.EventAuth.Check
import Phantom.StateRes.Mainline
import Phantom.StateRes.Separate

namespace Phantom.StateRes

open Phantom.Lib Phantom.Matrix

structure AuthSchedule where
  events : Completion
  authIds : HashOrder EventId
  authEvents : Completion
  thirdParty : EventId → HashOrder TypeStateKey

section AuthState

variable (ruma : Ruma) (rv : RoomVersion) (store : EventStore) (authEvents : HashMap EventId Event)

def stateKeyOf (event : Event) : Outcome Error String :=
  .ofOption (.invalidPdu "State event had no state key") event.stateKey

def insertAuthEvent (authState : StateMap Event) (id : EventId) : Outcome Error (StateMap Event) :=
  match authEvents.lookup id with
  | some event => do return authState.insert (event.eventType, ← stateKeyOf event) event
  | none => .ok authState

def insertResolved (resolved : StateMap EventId) (authState : StateMap Event) (key : TypeStateKey) :
    StateMap Event :=
  match (resolved.lookup key).bind (fun id => (authEvents.lookup id).or (store.fetch id)) with
  | some event => authState.insert key event
  | none => authState

def insertCreate (event : Event) (authState : StateMap Event) : StateMap Event :=
  if rv.roomCreateEventIdAsRoomId ∧ (.roomCreate, "") ∉ authState then
    match (createEventIdOf ruma event.roomId).bind store.fetch with
    | some create => authState.insert (.roomCreate, "") create
    | none => authState
  else authState

/-- The state an event is checked against: its auth events, then the resolved state under the
    selected keys, then the create event that the room ID names. -/
def authStateOf (resolved : StateMap EventId) (event : Event) (stateKey : String) :
    Outcome Error (StateMap Event) := do
  let authTypes ← authTypesForEvent ruma rv event.eventType event.sender (some stateKey) event.content
  let authState ← event.authEvents.foldlM (insertAuthEvent authEvents) ∅
  return insertCreate ruma rv store event (authTypes.foldl (insertResolved store authEvents resolved) authState)

def currentThirdParty (order : HashOrder TypeStateKey) (authState : StateMap Event) : Option Event :=
  ((order.iterate authState).find? fun entry => entry.2.eventType = .roomThirdPartyInvite).map Prod.snd

def checkNext (schedule : AuthSchedule) (resolved : StateMap EventId) (event : Event) :
    Outcome Error (StateMap EventId) := do
  let stateKey ← stateKeyOf event
  let authState ← authStateOf ruma rv store authEvents resolved event stateKey
  let accepted ← authCheck ruma rv event
    (currentThirdParty (schedule.thirdParty event.eventId) authState) authState.lookup
  if accepted then return resolved.insert (event.eventType, stateKey) event.eventId
  else return resolved

end AuthState

section IterativeAuthCheck

variable (ruma : Ruma) (rv : RoomVersion) (store : EventStore)

def fetchAuthEvents (schedule : AuthSchedule) (parallelFetches : Nat) (events : List Event) :
    Outcome Error (HashMap EventId Event) := do
  let ids := (events.flatMap Event.authEvents).toFinset
  let fetched ← schedule.authEvents.unordered parallelFetches (schedule.authIds.list ids)
  return HashMap.collect ((fetched.filterMap store.fetch).map fun event => (event.eventId, event))

def iterativeAuthCheck (schedule : AuthSchedule) (parallelFetches : Nat) (eventsToCheck : List EventId)
    (unconflictedState : StateMap EventId) : Outcome Error (StateMap EventId) := do
  let ids ← schedule.events.ordered parallelFetches eventsToCheck
  let events ← ids.mapM (fetchOrNotFound store)
  let authEvents ← fetchAuthEvents store schedule parallelFetches events
  events.foldlM (checkNext ruma rv store authEvents schedule) unconflictedState

end IterativeAuthCheck

end Phantom.StateRes
