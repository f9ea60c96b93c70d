import Mathlib.Data.List.ReduceOption
import Phantom.Lib.Fold
import Phantom.Lib.Loop
import Phantom.Lib.Schedule
import Phantom.StateRes.Store

namespace Phantom.StateRes

open Phantom.Lib Phantom.Matrix

structure MainlineSchedule where
  fetches : Completion
  depths : Completion
  keys : HashOrder EventId

section Mainline

variable (store : EventStore)

def fetchOrNotFound (id : EventId) : Outcome Error Event :=
  .ofOption (.notFound ("Failed to find " ++ id.asStr)) (store.fetch id)

/-- The first power levels event among the auth events, all of which must be found up to it. -/
def powerLevelsAmong : List EventId → Outcome Error (Option (EventId × Event))
  | [] => .ok none
  | id :: ids => do
    let event ← fetchOrNotFound store id
    if isTypeAndKey event .roomPowerLevels "" then return some (id, event)
    else powerLevelsAmong ids

def mainlineStep (state : Option EventId × List EventId) :
    Outcome Error (Option EventId × List EventId ⊕ List EventId) :=
  match state.1 with
  | none => .ok (.inr state.2)
  | some id => do
    let event ← fetchOrNotFound store id
    let next ← powerLevelsAmong store event.authEvents
    return .inl (next.map Prod.fst, state.2 ++ [id])

def mainlineMap (mainline : List EventId) : HashMap EventId Nat :=
  HashMap.collect (mainline.reverse.mapIdx fun index id => (id, index))

def depthStep (mainline : HashMap EventId Nat) (event : Option Event) :
    Outcome Error (Option Event ⊕ Nat) :=
  match event with
  | none => .ok (.inr 0)
  | some event =>
    match mainline.lookup event.eventId with
    | some depth => .ok (.inr depth)
    | none => do
      let next ← powerLevelsAmong store event.authEvents
      return .inl (next.map Prod.snd)

def getMainlineDepth (fuel : Nat) (mainline : HashMap EventId Nat) (event : Event) : Outcome Error Nat :=
  loop (depthStep store mainline) fuel (some event)

/-- `Result::ok`, which only takes the function's own errors. -/
def okOrSkip {α : Type} : Outcome Error α → Outcome Error (Option α)
  | .ok value => .ok (some value)
  | .error (.err _) => .ok none
  | .error failure => .error failure

abbrev MainlineRank := ℕ ×ₗ ℕ ×ₗ EventId

def mainlineRank (fuel : Nat) (mainline : HashMap EventId Nat) (entry : EventId × Event) :
    Outcome Error (Option (EventId × MainlineRank)) := do
  let depth ← okOrSkip (getMainlineDepth store fuel mainline entry.2)
  return depth.map fun depth =>
    (entry.1, toLex (depth, toLex (entry.2.originServerTs, entry.1)))

/-- `order_map[id]`; only its own keys are looked up. -/
def rankOf (orderMap : HashMap EventId MainlineRank) (id : EventId) : MainlineRank :=
  (orderMap.lookup id).getD (toLex (0, toLex (0, id)))

def foundEntries (ids : List EventId) : List (EventId × Event) :=
  ids.filterMap fun id => (store.fetch id).map fun event => (id, event)

def rankedSort (keys : HashOrder EventId) (fuel : Nat) (mainline : HashMap EventId Nat)
    (entries : List (EventId × Event)) : Outcome Error (List EventId) := do
  let ranks ← entries.mapM (mainlineRank store fuel mainline)
  let orderMap := HashMap.collect ranks.reduceOption
  return (keys.list orderMap.keys).insertionSort fun left right => rankOf orderMap left ≤ rankOf orderMap right

def mainlineSort (schedule : MainlineSchedule) (fuel parallelFetches : Nat) (toSort : List EventId)
    (resolvedPowerLevel : Option EventId) : Outcome Error (List EventId) :=
  if toSort = [] then .ok []
  else do
    let mainline ← loop (mainlineStep store) fuel (resolvedPowerLevel, [])
    let fetched ← schedule.fetches.unordered parallelFetches toSort
    let entries ← schedule.depths.unordered parallelFetches (foundEntries store fetched)
    rankedSort store schedule.keys fuel (mainlineMap mainline) entries

theorem mem_of_mainlineSort {store : EventStore} {schedule : MainlineSchedule}
    {fuel parallelFetches : Nat} {toSort sorted : List EventId} {resolvedPowerLevel : Option EventId} {id : EventId}
    (returned : mainlineSort store schedule fuel parallelFetches toSort resolvedPowerLevel = .ok sorted)
    (mem : id ∈ sorted) : id ∈ toSort := by
  unfold mainlineSort at returned
  split at returned
  · cases returned
    cases mem
  · obtain ⟨mainline, _, returned⟩ := Outcome.bind_eq_ok.mp returned
    obtain ⟨fetched, fetches, returned⟩ := Outcome.bind_eq_ok.mp returned
    obtain ⟨entries, depths, returned⟩ := Outcome.bind_eq_ok.mp returned
    obtain ⟨ranks, ranked, made⟩ := Outcome.bind_eq_ok.mp returned
    cases made
    rw [(List.perm_insertionSort _ _).mem_iff, HashOrder.mem_list, Finmap.mem_keys, HashMap.mem_collect] at mem
    obtain ⟨rank, listed⟩ := mem
    have ranks_mem : some (id, rank) ∈ ranks := List.reduceOption_mem_iff.mp listed
    obtain ⟨entry, entered, made⟩ := mapM_mem ranked ranks_mem
    obtain ⟨depth, _, made⟩ := Outcome.bind_eq_ok.mp made
    obtain ⟨_, _, same⟩ := Option.map_eq_some_iff.mp (Except.ok.inj made)
    rw [(schedule.depths.perm_of_unordered depths).mem_iff] at entered
    obtain ⟨other, fetchedId, found⟩ := List.mem_filterMap.mp entered
    grind [Option.map_eq_some_iff, List.Perm.mem_iff, Completion.perm_of_unordered]

end Mainline

end Phantom.StateRes
