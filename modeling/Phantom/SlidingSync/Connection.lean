import Phantom.Matrix.Event

namespace Phantom.SlidingSync

open Phantom.Lib Phantom.Matrix

abbrev ListId := String

structure RequestDetails where
  timelineLimit : Nat
  requiredState : List (EventType × String)
deriving DecidableEq

structure ListFilters where
  isDm : Option Bool
  isEncrypted : Option Bool
  isInvite : Option Bool
  roomTypes : List (Option String)
  notRoomTypes : List (Option String)
deriving DecidableEq

structure ListRequest where
  ranges : List (Nat × Nat)
  roomDetails : RequestDetails
  filters : Option ListFilters
deriving DecidableEq

structure Profiles where
  enabled : Option Bool
  fields : Option (List String)
deriving DecidableEq

abbrev Lists := BTreeMap ListId ListRequest

/-- The entries of the map from rooms to what is asked for them, in the map's order. -/
abbrev Subscriptions := List (RoomId × RequestDetails)

structure Request where
  waits : Bool
  lists : Lists
  roomSubscriptions : Subscriptions
  profiles : Profiles
deriving DecidableEq

structure Room where
  roomsince : Nat
  configHash : UInt64
deriving DecidableEq

instance : Inhabited Room := ⟨⟨0, 0⟩⟩

abbrev Rooms := RoomId → Option Room

/-- The connection as the sync service keeps it. The last two are the reserved keys of `known_rooms`. -/
structure StoredConnection where
  lists : Lists
  subscriptions : Subscriptions
  profiles : Profiles
  roomsince : RoomId → Option Nat
  config : RoomId → Option UInt64

structure Connection where
  globalsince : Nat
  nextBatch : Nat
  lists : Lists
  profiles : Profiles
  subscriptions : Subscriptions
  rooms : Rooms
  ownProfileOwed : Bool

namespace Connection

def default : Connection where
  globalsince := 0
  nextBatch := 0
  lists := .empty
  profiles := ⟨none, none⟩
  subscriptions := []
  rooms := fun _ => none
  ownProfileOwed := false

def load (stored : StoredConnection) : Connection :=
  { default with
    lists := stored.lists
    subscriptions := stored.subscriptions
    profiles := stored.profiles
    rooms := fun roomId =>
      (stored.roomsince roomId).map (fun roomsince => ⟨roomsince, (stored.config roomId).getD 0⟩) }

variable (conn : Connection)

def toStored : StoredConnection where
  lists := conn.lists
  subscriptions := conn.subscriptions
  profiles := conn.profiles
  roomsince := fun roomId => (conn.rooms roomId).map Room.roomsince
  config := fun roomId => (conn.rooms roomId).map Room.configHash

def room (roomId : RoomId) : Room := (conn.rooms roomId).getD ⟨0, 0⟩

def retard (since : Nat) (room : Room) : Room := if room.roomsince > since then ⟨since, 0⟩ else room

def updateRoomsPrologue (retardSince : Option Nat) (conn : Connection) : Connection :=
  match retardSince with
  | none => conn
  | some since => { conn with rooms := fun roomId => (conn.rooms roomId).map (retard since) }

def advance (complete : RoomId × Option UInt64) : Connection :=
  let room := conn.room complete.1
  { conn with
    rooms := Function.update conn.rooms complete.1
      (some ⟨conn.nextBatch, complete.2.getD room.configHash⟩) }

def updateRoomsEpilogue (complete : List (RoomId × Option UInt64)) (conn : Connection) : Connection :=
  complete.foldl advance conn

def owesOwnProfile : Bool :=
  conn.profiles.enabled.getD false && (conn.ownProfileOwed || conn.globalsince == 0)

def updateCacheList (request cached : ListRequest) : ListRequest × Bool :=
  let rangesChanged := decide (request.ranges ≠ cached.ranges)
  let timelineLimitChanged := decide (request.roomDetails.timelineLimit ≠ cached.roomDetails.timelineLimit)
  let requiredStateChanged := !request.roomDetails.requiredState.isEmpty &&
    decide (request.roomDetails.requiredState ≠ cached.roomDetails.requiredState)
  let filtersChanged := request.filters.isSome && decide (request.filters ≠ cached.filters)
  let updated : ListRequest :=
    { ranges := request.ranges
      roomDetails :=
        { timelineLimit := request.roomDetails.timelineLimit
          requiredState :=
            if requiredStateChanged then request.roomDetails.requiredState
            else cached.roomDetails.requiredState }
      filters := if filtersChanged then request.filters else cached.filters }
  (updated, rangesChanged || timelineLimitChanged || requiredStateChanged || filtersChanged)

def cacheList (state : Connection × Bool) (entry : ListId × ListRequest) : Connection × Bool :=
  match state.1.lists.get entry.1 with
  | some cached =>
    let (updated, listChanged) := updateCacheList entry.2 cached
    ({ state.1 with lists := state.1.lists.insert entry.1 updated }, state.2 || listChanged)
  | none => ({ state.1 with lists := state.1.lists.insert entry.1 entry.2 }, true)

variable (request : Request)

def updateCacheLists (conn : Connection) : Connection × Bool :=
  request.lists.entries.foldl cacheList (conn, false)

def updateCacheSubscriptions (conn : Connection) : Connection × Bool :=
  let changed := decide (request.roomSubscriptions ≠ conn.subscriptions)
  ({ conn with subscriptions := request.roomSubscriptions }, changed)

def fieldsWidened : Option (List String) → Option (List String) → Bool
  | some request, some cached => request.any fun name => !cached.contains name
  | _, _ => false

def updateCacheProfiles (request cached : Profiles) : Profiles × Bool :=
  (⟨request.enabled.or cached.enabled, request.fields.or cached.fields⟩,
    fieldsWidened request.fields cached.fields)

def updateCache (conn : Connection) : Connection × Bool :=
  let (conn, listsChanged) := updateCacheLists request conn
  let (conn, subscriptionsChanged) := updateCacheSubscriptions request conn
  let wasEnabled := conn.profiles.enabled.getD false
  let (profiles, fieldsWidened) := updateCacheProfiles request.profiles conn.profiles
  let switchedOn := !wasEnabled && profiles.enabled.getD false
  ({ conn with profiles := profiles, ownProfileOwed := fieldsWidened || switchedOn },
    listsChanged || subscriptionsChanged)

section Rooms

variable {conn : Connection} {roomId : RoomId}
variable {complete : List (RoomId × Option UInt64)}

theorem room_load_toStored (conn : Connection) : (load conn.toStored).rooms = conn.rooms := by
  funext roomId
  simp only [load, toStored]
  cases conn.rooms roomId with
  | none | some room => rfl

def progress (conn : Connection) : Nat × Nat × Rooms := (conn.globalsince, conn.nextBatch, conn.rooms)

theorem progress_cacheList (s : Connection × Bool) (entry : ListId × ListRequest) :
    (cacheList s entry).1.progress = s.1.progress := by
  unfold cacheList
  cases s.1.lists.get entry.1 with
  | none | some cached => rfl

theorem progress_updateCache (req : Request) (conn : Connection) :
    (updateCache req conn).1.progress = conn.progress := by
  have kept : ∀ (entries : List (ListId × ListRequest)) (s : Connection × Bool),
      (entries.foldl cacheList s).1.progress = s.1.progress := by
    intro entries
    induction entries with
    | nil => exact fun _ => rfl
    | cons entry entries ih =>
      intro s
      rw [List.foldl_cons, ih, progress_cacheList]
  exact kept req.lists.entries (conn, false)

theorem room_updateRoomsPrologue (since : Nat) (conn : Connection) (roomId : RoomId) :
    (updateRoomsPrologue (some since) conn).room roomId = retard since (conn.room roomId) := by
  simp only [room, updateRoomsPrologue]
  cases conn.rooms roomId with
  | none =>
    have low : ¬ 0 > since := by omega
    simp [retard, low]
  | some room => rfl

theorem retard_roomsince (since : Nat) (room : Room) : (retard since room).roomsince = min room.roomsince since := by
  grind [retard]

theorem room_advance_self (conn : Connection) (complete : RoomId × Option UInt64) :
    (conn.advance complete).room complete.1 = ⟨conn.nextBatch, complete.2.getD (conn.room complete.1).configHash⟩ := by
  simp [room, advance]

theorem room_advance_other {complete : RoomId × Option UInt64} (other : roomId ≠ complete.1) :
    (conn.advance complete).room roomId = conn.room roomId := by
  simp [room, advance, other]

theorem room_updateRoomsEpilogue_other (other : ∀ cfg, (roomId, cfg) ∉ complete) :
    (conn.updateRoomsEpilogue complete).room roomId = conn.room roomId := by
  induction complete generalizing conn with
  | nil => rfl
  | cons first complete ih =>
    have rest : ∀ cfg, (roomId, cfg) ∉ complete :=
      fun cfg mem => other cfg (List.mem_cons_of_mem first mem)
    have ne : roomId ≠ first.1 := by
      grind
    change ((conn.advance first).updateRoomsEpilogue complete).room roomId = _
    rw [ih rest, room_advance_other ne]

theorem room_updateRoomsEpilogue {cfg : Option UInt64}
    (unique : (complete.map Prod.fst).Nodup) (mem : (roomId, cfg) ∈ complete) :
    (conn.updateRoomsEpilogue complete).room roomId =
      ⟨conn.nextBatch, cfg.getD (conn.room roomId).configHash⟩ := by
  induction complete generalizing conn with
  | nil => cases mem
  | cons first complete ih =>
    rw [List.map_cons, List.nodup_cons] at unique
    change ((conn.advance first).updateRoomsEpilogue complete).room roomId = _
    rcases List.mem_cons.mp mem with same | mem
    · grind [room_updateRoomsEpilogue_other, room_advance_self]
    · have ne : roomId ≠ first.1 := by
        grind
      rw [ih unique.2 mem, room_advance_other ne]
      rfl

variable (complete : List (RoomId × Option UInt64))

@[simp] theorem nextBatch_updateRoomsEpilogue (conn : Connection) :
    (conn.updateRoomsEpilogue complete).nextBatch = conn.nextBatch := by
  induction complete generalizing conn with
  | nil => rfl
  | cons first complete ih => exact ih (conn.advance first)

@[simp] theorem globalsince_updateRoomsEpilogue (conn : Connection) :
    (conn.updateRoomsEpilogue complete).globalsince = conn.globalsince := by
  induction complete generalizing conn with
  | nil => rfl
  | cons first complete ih => exact ih (conn.advance first)

end Rooms

end Connection

end Phantom.SlidingSync
