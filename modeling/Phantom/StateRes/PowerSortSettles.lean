import Phantom.Lib.Settles
import Phantom.StateRes.PowerSort
import Phantom.StateRes.SortSchedule

namespace Phantom.StateRes

open Phantom.Lib Phantom.Matrix

def SameJson (left right : Error) : Prop :=
  ∃ first second, left = .serdeJson first ∧ right = .serdeJson second

/-- No event names two different power levels events, or two different create events, among its
    auth events. -/
def SingleAuth (store : EventStore) : Prop :=
  ∀ newer left right leftEvent rightEvent kind, kind = EventType.roomPowerLevels ∨ kind = .roomCreate →
    left ∈ store.authEvents newer → right ∈ store.authEvents newer →
    store.fetch left = some leftEvent → store.fetch right = some rightEvent →
    isTypeAndKey leftEvent kind "" = true → isTypeAndKey rightEvent kind "" = true → left = right

section Graph

variable {store : EventStore} {authDiff : Finset EventId}

theorem graphStep_total (s : List EventId × Graph EventId) (failure : Failure Error) :
    graphStep store authDiff s ≠ .error failure := by
  unfold graphStep
  split <;> exact nofun

theorem graphStep_smaller {size : EventId → Nat} (shrinks : ∀ id, ((store.authEvents id).map size).sum < size id)
    {s next : List EventId × Graph EventId} (ran : graphStep store authDiff s = .ok (.inl next)) :
    (next.1.map size).sum < (s.1.map size).sum := by
  obtain ⟨stack, g⟩ := s
  cases stack with
  | nil => cases ran
  | cons id stack =>
    rw [graphStep_cons] at ran
    have pushed : (((diffAuthEvents store authDiff id).filter
        (fun auth => ¬ (auth = id ∨ auth ∈ g))).map size).sum ≤ ((store.authEvents id).map size).sum := by
      refine List.Sublist.sum_le_sum ?_ fun _ _ => Nat.zero_le _
      exact (List.filter_sublist.trans List.filter_sublist).map size
    grind [List.map_reverse]

theorem powerGraph_failure {fuel : Nat} {events : List EventId} {failure : Failure Error}
    (failed : powerGraph store authDiff fuel events = .error failure) : failure = .unfinished := by
  obtain ⟨g, id, _, failed⟩ := foldlM_failure failed
  exact Or.resolve_right (loop_failure (fun _ => True) (fun _ => False) (fun _ _ _ _ => trivial)
    (fun s failure _ ran => graphStep_total s failure ran) failed trivial) fun impossible => impossible

theorem powerGraph_returns (wellFounded : WellFounded store.AuthOf) (authDiff : Finset EventId)
    (roots : List EventId) : ∃ bound, ∀ events fuel, events.Perm roots →
      (∃ g, powerGraph store authDiff fuel events = .ok g) ∨
      (powerGraph store authDiff fuel events = .error .unfinished ∧ fuel < bound) := by
  obtain ⟨size, shrinks⟩ := EventStore.exists_size wellFounded
  refine ⟨(roots.map size).sum + 1, ?_⟩
  intro events fuel perm
  cases built : powerGraph store authDiff fuel events with
  | ok g => exact Or.inl ⟨g, rfl⟩
  | error failure =>
    obtain rfl := powerGraph_failure built
    by_contra enough
    obtain ⟨g, id, mem, failed⟩ := foldlM_failure built
    have single : size id ≤ (roots.map size).sum :=
      List.single_le_sum (fun _ _ => Nat.zero_le _) _ (List.mem_map_of_mem (perm.mem_iff.mp mem))
    refine loop_finishes (fun _ => True) (fun s => (s.1.map size).sum) (fun s _ => graphStep_total s _)
      (fun s next _ ran => ⟨trivial, graphStep_smaller shrinks ran⟩) trivial ?_ failed
    grind

theorem powerGraph_settles (wellFounded : WellFounded store.AuthOf) {ι : Type} (fuel width : ι → Nat)
    (authDiff : Finset EventId) (events : ι → List EventId) (roots : List EventId)
    (perm : ∀ index, (events index).Perm roots) : ∃ g, Settles fuel width SameJson
      (fun index => powerGraph store authDiff (fuel index) (events index)) (.ok g) := by
  obtain ⟨bound, returns⟩ := powerGraph_returns wellFounded authDiff roots
  obtain ⟨g, built⟩ : ∃ g, powerGraph store authDiff bound roots = .ok g := by
    rcases returns roots bound (List.Perm.refl _) with built | ⟨_, impossible⟩
    · exact built
    · omega
  refine ⟨g, .ok g, bound, ?_⟩
  intro index
  rcases returns (events index) (fuel index) (perm index) with ⟨other, otherBuilt⟩ | ⟨pending, early⟩
  · have same := (powerGraph_spec otherBuilt).unique (fun _ => (perm index).mem_iff) (powerGraph_spec built)
    exact Or.inl (Or.inl (same ▸ otherBuilt))
  · exact Or.inr ⟨pending, Or.inl early⟩

end Graph

section PowerLevel

variable {ruma : Ruma} {rv : RoomVersion} {store : EventStore}
variable {ι : Type} {power : EventId → Outcome Error UserPower} {fuel width : ι → Nat}
variable {schedule : ι → PowerSortSchedule}

theorem find_perm {α : Type} {left right : List α} {keep : α → Bool} (perm : left.Perm right)
    (single : ∀ first second, first ∈ left → second ∈ left → keep first = true → keep second = true →
      first = second) : left.find? keep = right.find? keep := by
  cases found : left.find? keep with
  | none =>
    grind
  | some item =>
    cases other : right.find? keep with
    | none | some second => grind

def senderPower (ruma : Ruma) (rv : RoomVersion) (store : EventStore) (id : EventId) :
    Outcome Error UserPower :=
  powerLevelOf ruma rv store (store.fetch id) ((store.authEvents id).filterMap store.fetch)

theorem getPowerLevelForSender_cases (single : SingleAuth store) (completion : Completion)
    (parallelFetches : Nat) (id : EventId) :
    getPowerLevelForSender ruma rv store completion parallelFetches id = senderPower ruma rv store id ∨
    (getPowerLevelForSender ruma rv store completion parallelFetches id = .error .unfinished ∧
      parallelFetches = 0) := by
  unfold getPowerLevelForSender
  rcases completion.unordered_cases (ε := Error) (min parallelFetches 5) (store.authEvents id) with
    ⟨fetched, returned, perm⟩ | ⟨pending, zero⟩
  · left
    rw [returned, Outcome.ok_bind]
    have events := perm.filterMap store.fetch
    have unique : ∀ kind, kind = EventType.roomPowerLevels ∨ kind = .roomCreate →
        (fetched.filterMap store.fetch).find? (fun auth => isTypeAndKey auth kind "") =
          ((store.authEvents id).filterMap store.fetch).find? (fun auth => isTypeAndKey auth kind "") := by
      intro kind either
      refine find_perm events ?_
      intro first second firstMember secondMember firstKind secondKind
      obtain ⟨left, leftMember, leftFound⟩ := List.mem_filterMap.mp (events.mem_iff.mp firstMember)
      obtain ⟨right, rightMember, rightFound⟩ := List.mem_filterMap.mp (events.mem_iff.mp secondMember)
      have same := single id left right first second kind either leftMember rightMember leftFound
      grind
    unfold senderPower powerLevelOf
    rw [unique .roomPowerLevels (Or.inl rfl), unique .roomCreate (Or.inr rfl)]
  · grind [Outcome.error_bind]

variable {failure : Failure Error}

theorem powerLevelOf_failure {event : Option Event} {authEvents : List Event}
    (failed : powerLevelOf ruma rv store event authEvents = .error failure) :
    ∃ message, failure = .err (.serdeJson message) := by
  unfold powerLevelOf at failed
  split at failed
  · cases failed
  · split at failed
    · cases failed
    · rcases Outcome.bind_eq_error.mp failed with failed | ⟨_, _, failed⟩
      · exact ⟨_, Outcome.ofOption_failure failed⟩
      · cases failed

structure RankedAlike {ι : Type} (ruma : Ruma) (rv : RoomVersion) (store : EventStore)
    (authEvents : ι → EventId → Completion) (width : ι → Nat)
    (power : EventId → Outcome Error UserPower) : Prop where
  reads : ∀ index id, getPowerLevelForSender ruma rv store (authEvents index id) (width index) id = power id ∨
    (getPowerLevelForSender ruma rv store (authEvents index id) (width index) id = .error .unfinished ∧
      width index = 0)
  failure : ∀ id failure, power id = .error failure → ∃ message, failure = .err (.serdeJson message)

theorem rankedAlike_of_single (ruma : Ruma) (rv : RoomVersion) (single : SingleAuth store)
    (authEvents : ι → EventId → Completion) (width : ι → Nat) :
    RankedAlike ruma rv store authEvents width (senderPower ruma rv store) :=
  ⟨fun index id => getPowerLevelForSender_cases single (authEvents index id) (width index) id,
    fun _ _ failed => powerLevelOf_failure failed⟩

variable {ids : List EventId}

theorem insertPower_ok {eventToPl : HashMap EventId UserPower}
    (folded : ids.foldlM (insertPower power) ∅ = .ok eventToPl) :
    (∀ id ∈ ids, ∃ level, power id = .ok level ∧ eventToPl.lookup id = some level) ∧
      ∀ id ∉ ids, eventToPl.lookup id = none := by
  have general : ∀ (ids : List EventId) (first : HashMap EventId UserPower),
      ids.foldlM (insertPower power) first = .ok eventToPl →
      (∀ id ∈ ids, ∃ level, power id = .ok level ∧ eventToPl.lookup id = some level) ∧
        ∀ id ∉ ids, eventToPl.lookup id = first.lookup id := by
    intro ids
    induction ids with
    | nil =>
      intro first folded
      cases folded
      grind
    | cons id ids ih =>
      intro first folded
      obtain ⟨next, inserted, folded⟩ := Outcome.bind_eq_ok.mp folded
      obtain ⟨level, ranked, made⟩ := Outcome.bind_eq_ok.mp inserted
      grind [Finmap.lookup_insert, Finmap.lookup_insert_of_ne]
  exact general ids ∅ folded

theorem insertPower_failure (failed : ids.foldlM (insertPower power) ∅ = .error failure) :
    ∃ id ∈ ids, power id = .error failure := by
  obtain ⟨_, id, mem, failed⟩ := foldlM_failure failed
  rcases Outcome.bind_eq_error.mp failed with failed | ⟨_, _, failed⟩
  · exact ⟨id, mem, failed⟩
  · cases failed

theorem insertPower_settles {authEvents : ι → EventId → Completion}
    (alike : RankedAlike ruma rv store authEvents width power) (ids : ι → List EventId)
    (all : List EventId) (perm : ∀ index, (ids index).Perm all) :
    Settles fuel width SameJson (fun index => (ids index).foldlM (insertPower fun id =>
        getPowerLevelForSender ruma rv store (authEvents index id) (width index) id) ∅)
      (all.foldlM (insertPower power) ∅) := by
  refine ⟨?_, 0, ?_⟩
  · refine foldlM_finishes fun _ id _ => .bind ?_ fun _ => .ok _
    intro failed
    obtain ⟨_, impossible⟩ := alike.failure id _ failed
    cases impossible
  intro index
  cases ran : (ids index).foldlM (insertPower fun id =>
      getPowerLevelForSender ruma rv store (authEvents index id) (width index) id) ∅ with
  | ok eventToPl =>
    obtain ⟨listed, unlisted⟩ := insertPower_ok ran
    have ranked : ∀ id ∈ all, ∃ level, power id = .ok level ∧ eventToPl.lookup id = some level := by
      intro id mem
      obtain ⟨level, read, held⟩ := listed id ((perm index).mem_iff.mpr mem)
      rcases alike.reads index id with same | ⟨pending, _⟩
      · exact ⟨level, same ▸ read, held⟩
      · rw [read] at pending
        cases pending
    left
    left
    cases folded : all.foldlM (insertPower power) ∅ with
    | error failure =>
      grind [insertPower_failure]
    | ok other =>
      obtain ⟨otherListed, otherUnlisted⟩ := insertPower_ok folded
      refine congrArg Except.ok (Finmap.ext_lookup ?_)
      grind
  | error failure =>
    obtain ⟨id, mem, failed⟩ := insertPower_failure ran
    rcases alike.reads index id with same | ⟨pending, zero⟩
    · left
      right
      rw [same] at failed
      cases folded : all.foldlM (insertPower power) ∅ with
      | ok other =>
        grind [insertPower_ok]
      | error otherFailure =>
        obtain ⟨other, _, otherFailed⟩ := insertPower_failure folded
        obtain ⟨message, rfl⟩ := alike.failure id _ failed
        obtain ⟨otherMessage, rfl⟩ := alike.failure other _ otherFailed
        exact ⟨_, _, rfl, rfl, message, otherMessage, rfl, rfl⟩
    · grind

variable (eventToPl : HashMap EventId UserPower)

theorem powerKey_uniform : UniformFailure (powerKey store eventToPl) := by
  have only : ∀ id failure, powerKey store eventToPl id = .error failure → failure = .err (.notFound "") := by
    intro id failure failed
    unfold powerKey at failed
    cases held : eventToPl.lookup id with
    | none => rw [held] at failed; cases failed; rfl
    | some power =>
      cases found : store.fetch id with
      | none => rw [held, found] at failed; cases failed; rfl
      | some event => rw [held, found] at failed; cases failed
  intro left right first second leftFailed rightFailed
  grind

theorem powerKey_finishes (id : EventId) : (powerKey store eventToPl id).Finishes :=
  (Outcome.Finishes.ofOption _ _).bind fun _ => (Outcome.Finishes.ofOption _ _).bind fun _ => .ok _

theorem powerSorted_settles (sort : ι → SortSchedule EventId) (fuel width : ι → Nat)
    (eventToPl : HashMap EventId UserPower) (g : Graph EventId) : ∃ result, Settles fuel width SameJson (fun index =>
      lexicographicalTopologicalSort (sort index) (powerKey store eventToPl) g (fuel index)) result := by
  have order : HashOrder EventId := .ascending id Function.injective_id
  have reference : SortSchedule EventId := { nodes := order, edges := fun _ => order, parents := fun _ => order }
  refine ⟨lexicographicalTopologicalSort reference (powerKey store eventToPl) g (g.keys.card + 1),
    lexicographicalTopologicalSort_finishes (fun id _ => powerKey_finishes eventToPl id) reference (Nat.lt_succ_self _),
    g.keys.card + 1, ?_⟩
  intro index
  rcases lexicographicalTopologicalSort_settles (powerKey_uniform eventToPl)
    (fun id _ => powerKey_finishes eventToPl id) (sort index) reference (fuel index) with same | ⟨pending, early⟩
  · exact Or.inl (Or.inl same)
  · exact Or.inr ⟨pending, Or.inl early⟩

theorem rankAndSort_settles (alike : RankedAlike ruma rv store (fun index => (schedule index).authEvents) width power)
    (g : Graph EventId) (completed : ι → List EventId) (perm : ∀ index, (completed index).Perm g.keys.toList) :
    ∃ result, Settles fuel width SameJson (fun index => (completed index).foldlM (insertPower fun id =>
        getPowerLevelForSender ruma rv store ((schedule index).authEvents id) (width index) id) ∅ >>=
      fun eventToPl => lexicographicalTopologicalSort (schedule index).sort (powerKey store eventToPl)
        g (fuel index)) result := by
  refine Settles.exists_bind ⟨_, insertPower_settles alike completed g.keys.toList perm⟩ ?_
  intro eventToPl
  exact powerSorted_settles (fun index => (schedule index).sort) fuel width eventToPl g

/-- On an acyclic graph the power sort has one outcome for all orders of its events, of the
    collections it iterates and of its fetches. -/
theorem reverseTopologicalPowerSort_settles (wellFounded : WellFounded store.AuthOf)
    (alike : RankedAlike ruma rv store (fun index => (schedule index).authEvents) width power)
    (events : ι → List EventId) (roots : List EventId) (perm : ∀ index, (events index).Perm roots)
    (authDiff : Finset EventId) : ∃ result, Settles fuel width SameJson (fun index =>
      reverseTopologicalPowerSort ruma rv store (schedule index) (fuel index) (width index)
        (events index) authDiff) result := by
  obtain ⟨g, built⟩ := powerGraph_settles wellFounded fuel width authDiff events roots perm
  refine Settles.exists_bind_ok built (Settles.exists_bind_unordered
    (fun index => (schedule index).graphKeys.list_perm_toList g.keys) ?_)
  intro completed reordered
  exact rankAndSort_settles alike g completed reordered

end PowerLevel

end Phantom.StateRes
