import Phantom.Lib.Frame
import Phantom.Lib.Lru
import Phantom.Rooms.StateStore

namespace Phantom.AuthChain

open Phantom.Lib Phantom.Matrix Phantom.Rooms

structure AuthPdu where
  roomId : RoomId
  authEvents : List EventId
deriving DecidableEq, Repr

/-- All events that there are. An event ID is a hash of its event, so it stands for one event only. -/
abbrev Graph := EventId → AuthPdu

def Graph.authEvents (graph : Graph) (eventId : EventId) : List EventId := (graph eventId).authEvents

inductive ChainError where
  | short (error : Rooms.Error)
  | forbidden (message : String)
deriving DecidableEq, Repr

/-- The tables of the short IDs, the events that are stored, and the chains that were cached: one row for
    each event, and in memory also for the events of a bucket. -/
structure World where
  short : Rooms.Store
  stored : List EventId
  shorteventidAuthchain : ShortEventId → Option (List UInt8)
  authChainCache : LruCache (List ShortEventId) (List ShortEventId)

def World.init (dropped : ℕ → List ShortEventId → Bool) : World := ⟨.empty, [], fun _ => none, .empty dropped⟩

abbrev ChainAction := Action World ChainError

def onShorts {α : Type} (action : StoreAction α) : ChainAction α :=
  action.zoom World.short (fun short world => { world with short := short }) ChainError.short

def recordShorteventid (eventId : EventId) (short : ShortEventId) (store : Rooms.Store) : Rooms.Store :=
  { store with
    shorteventids := Function.update store.shorteventids eventId (some short)
    eventids := Function.update store.eventids short (some eventId) }

def createShorteventid (eventId : EventId) : StoreAction ShortEventId := do
  let short ← nextCount
  Action.modify (recordShorteventid eventId short)
  return short

/-- The rows are read as one batch, so an event that is listed twice may be missed twice. -/
def multiGetOrCreateShorteventid (eventIds : List EventId) : StoreAction (List ShortEventId) := do
  let store ← Action.get
  eventIds.foldlM (fun shorts eventId => do
    match store.shorteventids eventId with
    | some short => return shorts ++ [short]
    | none => return shorts ++ [← createShorteventid eventId]) []

def encodeChain (chain : List ShortEventId) : List UInt8 := chain.flatMap toBeBytes

/-- `chunks_exact` of eight bytes: what is left over at the end is not read. -/
def decodeChain : List UInt8 → List ShortEventId
  | b₀ :: b₁ :: b₂ :: b₃ :: b₄ :: b₅ :: b₆ :: b₇ :: rest =>
    fromBeBytes [b₀, b₁, b₂, b₃, b₄, b₅, b₆, b₇] :: decodeChain rest
  | _ => []

def cachedAuthChain (key : List ShortEventId) : ChainAction (Option (List ShortEventId)) := do
  let world ← Action.get
  match world.authChainCache.held key with
  | some chain => return some chain
  | none =>
    match key with
    | [short] =>
      match world.shorteventidAuthchain short with
      | none => return none
      | some bytes =>
        let chain := decodeChain bytes
        Action.modify fun world => { world with authChainCache := world.authChainCache.insert [short] chain }
        return some chain
    | _ => return none

def storeAuthChain (key chain : List ShortEventId) (world : World) : World :=
  match key with
  | [short] =>
    { world with
      shorteventidAuthchain := Function.update world.shorteventidAuthchain short (some (encodeChain chain)) }
  | _ => world

def cacheAuthChain (key chain : List ShortEventId) : ChainAction Unit := do
  Action.modify (storeAuthChain key chain)
  Action.modify fun world => { world with authChainCache := world.authChainCache.insert key chain }

def World.getPdu (graph : Graph) (world : World) (eventId : EventId) : Option AuthPdu :=
  if eventId ∈ world.stored then some (graph eventId) else none

/-- The body of the loop over `auth_events`. -/
def visitAuthEvent (held : List ShortEventId × List EventId) (authEvent : EventId) :
    ChainAction (List ShortEventId × List EventId) := do
  let sauthevent ← onShorts (getOrCreateShorteventid authEvent)
  if sauthevent ∈ held.1 then return held
  else return (held.1 ++ [sauthevent], held.2 ++ [authEvent])

section Walk

variable (graph : Graph) (roomId : RoomId)

/-- The `while` loop of `auth_chain_for_event`. An event that is not stored is passed over. -/
def walk : ℕ → List ShortEventId → List EventId → ChainAction (List ShortEventId)
  | 0, _, _ => Action.lift (.error .unfinished)
  | _ + 1, found, [] => return found
  | fuel + 1, found, eventId :: todo => do
    match (← Action.get).getPdu graph eventId with
    | none => walk fuel found todo
    | some pdu =>
      if pdu.roomId ≠ roomId then Action.lift (.fail (.forbidden "auth event for incorrect room"))
      else
        let held ← pdu.authEvents.foldlM visitAuthEvent (found, todo)
        walk fuel held.1 held.2

def World.turns (world : World) : ℕ := (world.stored.flatMap graph.authEvents).length + 2

def authChainForEvent (eventId : EventId) : ChainAction (List ShortEventId) := do
  walk graph roomId ((← Action.get).turns graph) [] [eventId]

def sortDedup (chain : List ShortEventId) : List ShortEventId := (chain.insertionSort (· ≤ ·)).dedup

def chainOf (id : ShortEventId × EventId) : ChainAction (List ShortEventId) := do
  match ← cachedAuthChain [id.1] with
  | some cached => return cached
  | none =>
    let authChain ← authChainForEvent graph roomId id.2
    cacheAuthChain [id.1] authChain
    return authChain

def authChainForBucket (bucket : List (ShortEventId × EventId)) : ChainAction (List ShortEventId) := do
  let bucketKey := bucket.map Prod.fst
  if bucketKey.isEmpty then return []
  else
    match ← cachedAuthChain bucketKey with
    | some cached => return cached
    | none =>
      let chains ← bucket.foldlM (fun chains id => do return chains ++ (← chainOf graph roomId id)) []
      let bucketCache := sortDedup chains
      cacheAuthChain bucketKey bucketCache
      return bucketCache

def numBuckets : ℕ := 50

def bucketOf (startingIds : List (ShortEventId × EventId)) (index : ℕ) : List (ShortEventId × EventId) :=
  ((startingIds.filter fun id => id.1.toNat % numBuckets = index).dedup).insertionSort
    (fun left right => left.1 < right.1 ∨ left.1 = right.1 ∧ left.2 ≤ right.2)

def getAuthChain (startingEvents : List EventId) : ChainAction (List ShortEventId) := do
  let shorts ← onShorts (multiGetOrCreateShorteventid startingEvents)
  let buckets := (List.range numBuckets).map (bucketOf (shorts.zip startingEvents))
  let chains ← buckets.foldlM (fun chains bucket => do return chains ++ (← authChainForBucket graph roomId bucket)) []
  return sortDedup chains

end Walk

/-- What happens around the calls: events arrive, other services give short IDs to events or draw from the
    counter, and the cache in memory is cleared. -/
inductive Label where
  | store (eventId : EventId)
  | call (roomId : RoomId) (startingEvents : List EventId)
  | shorten (eventId : EventId)
  | count
  | clearCache
deriving DecidableEq, Repr

def step (graph : Graph) (world : World) : Label → World
  | .store eventId => { world with stored := eventId :: world.stored }
  | .call roomId startingEvents => (getAuthChain graph roomId startingEvents world).2
  | .shorten eventId => (onShorts (getOrCreateShorteventid eventId) world).2
  | .count => (onShorts nextCount world).2
  | .clearCache => { world with authChainCache := world.authChainCache.clear }

end Phantom.AuthChain
