import Phantom.StateRes.AuthLoopSettles
import Phantom.StateRes.MainlineSettles
import Phantom.StateRes.Resolve

namespace Phantom.StateRes

open Phantom.Lib Phantom.Matrix

section Failures

variable {ruma : Ruma} {rv : RoomVersion} {store : EventStore}
variable {fuel : Nat} {failure : Failure Error} {resolvedPowerLevel : Option EventId}

section

variable (complete : ∀ id, ∀ auth ∈ store.authEvents id, (store.fetch auth).isSome)
    (found : ∀ id, resolvedPowerLevel = some id → (store.fetch id).isSome)
include complete found

end

end Failures

section Contents

variable (ruma : Ruma) (rv : RoomVersion) (store : EventStore)

/-- What the check of the event reads of the event itself and of the events it names can be read. -/
structure Checkable (event : Event) : Prop where
  keyed : event.stateKey.isSome
  target : event.eventType = .roomMember → ∀ stateKey message, event.stateKey = some stateKey →
    ruma.userId stateKey ≠ .error message
  own : Readable ruma rv event.eventType event.content
  auth : ∀ id ∈ event.authEvents, ∀ named, store.fetch id = some named →
    named.stateKey.isSome ∧ Readable ruma rv named.eventType named.content
  create : rv.roomCreateEventIdAsRoomId → ∀ named,
    (createEventIdOf ruma event.roomId).bind store.fetch = some named → Readable ruma rv .roomCreate named.content

def ReadableState (authState : StateMap Event) : Prop :=
  ∀ key event, authState.lookup key = some event → Readable ruma rv key.1 event.content

/-- Each entry of the state can be fetched, and its content be read under the type it stands under. -/
def ReadableEntries (state : StateMap EventId) : Prop :=
  ∀ key id, state.lookup key = some id → ∃ event, store.fetch id = some event ∧ Readable ruma rv key.1 event.content

end Contents

section Checks

variable {ruma : Ruma} {rv : RoomVersion} {store : EventStore} {authEvents : HashMap EventId Event}
variable {resolved : StateMap EventId} {authState : StateMap Event} {event : Event}

theorem ReadableState.insert (readable : ReadableState ruma rv authState) {key : TypeStateKey}
    (own : Readable ruma rv key.1 event.content) : ReadableState ruma rv (authState.insert key event) := by
  intro other held found
  rw [HashMap.lookup_insert_eq] at found
  split at found
  · next same =>
    cases found
    exact same ▸ own
  · exact readable other held found

theorem ReadableState.insertResolved (readable : ReadableState ruma rv authState)
    (entries : ReadableEntries ruma rv store resolved)
    (stored : ∀ id held, authEvents.lookup id = some held → store.fetch id = some held) (key : TypeStateKey) :
    ReadableState ruma rv (insertResolved store authEvents resolved authState key) := by
  unfold StateRes.insertResolved
  split
  · next event found =>
    obtain ⟨id, entered, found⟩ := Option.bind_eq_some_iff.mp found
    obtain ⟨held, fetched, own⟩ := entries key id entered
    have same : store.fetch id = some event := by
      rcases Option.or_eq_some_iff.mp found with early | ⟨_, late⟩
      · exact stored id event early
      · exact late
    cases fetched.symm.trans same
    exact readable.insert own
  · exact readable

section

variable (checkable : Checkable ruma rv store event)
  (stored : ∀ id held, authEvents.lookup id = some held → store.fetch id = some held)
include checkable

theorem Checkable.insertCreate (readable : ReadableState ruma rv authState) :
    ReadableState ruma rv (insertCreate ruma rv store event authState) := by
  unfold StateRes.insertCreate
  split
  · next wanted =>
    split
    · next found => exact readable.insert (checkable.create wanted.1 _ found)
    · exact readable
  · exact readable

include stored

theorem Checkable.insertAuthEvent_keeps {id : EventId} (mem : id ∈ event.authEvents) {next : StateMap Event}
    (readable : ReadableState ruma rv authState)
    (inserted : insertAuthEvent authEvents authState id = .ok next) : ReadableState ruma rv next := by
  unfold insertAuthEvent at inserted
  split at inserted
  · next found =>
    obtain ⟨stateKey, _, made⟩ := Outcome.bind_eq_ok.mp inserted
    cases made
    exact readable.insert (checkable.auth id mem _ (stored id _ found)).2
  · cases inserted
    exact readable

variable (entries : ReadableEntries ruma rv store resolved)

theorem Checkable.authStateOf_failsOnly (stateKey : String) :
    (authStateOf ruma rv store authEvents resolved event stateKey).FailsOnly (fun _ => False) := by
  refine .bind (authTypesForEvent_failsOnly (fun member missing => ?_) _ _) fun _ _ =>
    .bind (fun failure failed => ?_) fun _ _ => .ok _
  · have own := checkable.own
    rw [member] at own
    have present := own.fields
    rw [missing] at present
    cases present
  · obtain ⟨current, id, mem, failed⟩ := foldlM_failure failed
    unfold insertAuthEvent at failed
    split at failed
    · next found =>
      obtain ⟨key, keyed⟩ := Option.isSome_iff_exists.mp (checkable.auth id mem _ (stored id _ found)).1
      rw [stateKeyOf, keyed] at failed
      cases failed
    · cases failed

include entries

theorem Checkable.readableState {stateKey : String}
    (assembled : authStateOf ruma rv store authEvents resolved event stateKey = .ok authState) :
    ReadableState ruma rv authState := by
  obtain ⟨authTypes, _, assembled⟩ := Outcome.bind_eq_ok.mp assembled
  obtain ⟨named, folded, made⟩ := Outcome.bind_eq_ok.mp assembled
  cases made
  have namedReadable : ReadableState ruma rv named :=
    foldlM_invariant _ (fun _ _ _ mem kept inserted => checkable.insertAuthEvent_keeps stored mem kept inserted)
      folded nofun
  refine checkable.insertCreate ?_
  exact List.foldlRecOn authTypes _ namedReadable fun _ kept key _ => kept.insertResolved entries stored key

theorem Checkable.blamed {stateKey : String} (defaults : (ruma.roomPowerLevels (.object [])).isSome)
    (assembled : authStateOf ruma rv store authEvents resolved event stateKey = .ok authState) :
    Blamed ruma rv (fun _ => False) event authState.lookup where
  own := fun _ same unreadable => absurd checkable.own (by cases same; exact unreadable)
  state := fun key held found unreadable =>
    absurd (checkable.readableState stored entries assembled key held found) unreadable
  target := fun member key message keyed refused => absurd refused (checkable.target member key message keyed)
  defaults := fun missing => by
    rw [missing] at defaults
    cases defaults

/-- The check of such an event against such a state gives a verdict, and keeps the state so. -/
theorem Checkable.checkNext (fetched : store.fetch event.eventId = some event)
    (defaults : (ruma.roomPowerLevels (.object [])).isSome) (schedule : AuthSchedule) :
    ∃ next, checkNext ruma rv store authEvents schedule resolved event = .ok next ∧
      ReadableEntries ruma rv store next := by
  obtain ⟨stateKey, keyed⟩ := Option.isSome_iff_exists.mp checkable.keyed
  unfold StateRes.checkNext stateKeyOf
  rw [keyed, Outcome.ofOption_some, Outcome.ok_bind]
  cases assembled : authStateOf ruma rv store authEvents resolved event stateKey with
  | error failure => cases checkable.authStateOf_failsOnly stored stateKey failure assembled
  | ok authState =>
    rw [Outcome.ok_bind]
    have readable := checkable.readableState stored entries assembled
    cases decided : authCheck ruma rv event
        (currentThirdParty (schedule.thirdParty event.eventId) authState) authState.lookup with
    | error failure =>
      refine (authCheck_failsOnly (checkable.blamed stored entries defaults assembled) _ (fun _ reads => ?_)
        failure decided).elim
      obtain ⟨_, memberEvent, found, fields, decoded, absent⟩ := reads
      obtain ⟨membership, given, _⟩ := (readable _ _ found).given fields decoded
      cases absent.symm.trans given
    | ok accepted =>
      cases accepted with
      | false => exact ⟨resolved, rfl, entries⟩
      | true =>
        refine ⟨_, rfl, fun key id held => ?_⟩
        rw [HashMap.lookup_insert_eq] at held
        split at held
        · next same =>
          cases held
          exact ⟨event, fetched, same ▸ checkable.own⟩
        · exact entries key id held

end

end Checks

section Returns

variable {ruma : Ruma} {store : EventStore} {schedule : Schedule} {fuel parallelFetches : Nat}
  {rv : RoomVersion} {clean : StateMap EventId} {allConflicted : Finset EventId}
variable {completed : List EventId} {failure : Failure Error}

section

variable (checkable : ∀ id ∈ allConflicted, ∃ event, store.fetch id = some event ∧ Checkable ruma rv store event)
include checkable

end

end Returns

end Phantom.StateRes
