import Phantom.Sync.LazyRooms

namespace Phantom.Sync.Lazy

open Phantom.Lib Phantom.Matrix Function

namespace World

/-- A room is reset before it is first loaded for a client that started over. Senders and readers have a membership
    event in the state before the first event or among those shown. Where the state of an encrypted room is
    sent as a difference, it is one to what the client has, and memberships only come with shown events. -/
def settledLoad (world : World) (request : Request) (since : Nat) (roomId : RoomId) (view : RoomView) : Bool :=
  let sinceState := world.tokenStates roomId since
  let horizon := view.horizon.getD view.current
  let before := world.resetIfInitial roomId since
  before.started roomId &&
    (view.senders ++ view.readers).all (fun user => horizon.has user || decide (user ∈ view.timelineMembers)) &&
    (!view.encrypted ||
      (request.fullState || sinceState.isNone || view.joinedSinceLastSync ||
          decide (before.whole roomId = sinceState)) &&
        horizon.all (fun entry => view.current.has entry.1) &&
        view.current.all fun entry => horizon.has entry.1 || decide (entry.1 ∈ view.timelineMembers))

/-- Besides the loads being settled, a response for a position has all the senders and readers of those that were
    lost before for the same position. -/
def settled (world : World) : Label → Bool
  | .load roomId view =>
    match world.phase with
    | .building request since _ _ => world.settledLoad request since roomId view
    | _ => true
  | .finish _ =>
    match world.phase with
    | .building _ _ _ results => world.lost.all fun pair => decide (pair ∈ witnesses results)
    | _ => true
  | _ => true

end World

variable (world : World)

/-- The client was told of every member that the rows say it was, or it is about to be, or it missed that at its
    position. -/
def Entries (results : List (RoomId × RoomResult)) : Prop :=
  ∀ roomId user seen, world.started roomId = true → world.lazyloadedids roomId user = some seen →
    world.known roomId user = true ∨
      (((roomId, user) ∈ world.lost ∨ (roomId, user) ∈ witnesses results) ∧ (seen = 0 ∨ seen = world.token))

structure Told (known : UserId → Bool) (result : RoomResult) : Prop where
  senders : ∀ user ∈ result.senders, user ∈ result.witness
  witness : ∀ user ∈ result.witness, result.shows user = true ∨ known user = true
  current : result.encrypted = true → ∀ user, result.current.has user = true →
    result.shows user = true ∨ known user = true

def Whole : Prop :=
  ∀ roomId state, world.whole roomId = some state → ∀ user, state.has user = true → world.known roomId user = true

def Introduced : Prop :=
  ∀ response ∈ world.received, ∀ roomId result, (roomId, result) ∈ response.results →
    ∀ user ∈ result.senders, result.shows user = true ∨ response.known roomId user = true

/-- What holds while the loop goes on from a position with the results of a pass. -/
def Consistent (pos : Nat) (results : List (RoomId × RoomResult)) : Prop :=
  world.token ≤ world.count ∧ pos ≤ world.count ∧ (world.lost ≠ [] → pos = world.token) ∧ Entries world results ∧
    (∀ roomId result, (roomId, result) ∈ results → Told (world.known roomId) result) ∧ Whole world ∧ Introduced world

def Stands : Phase → Prop
  | .idle => Consistent world world.token []
  | .looping _ since => Consistent world since []
  | .building _ since nextBatch results => Consistent world since results ∧ nextBatch ≤ world.count
  | .waiting _ nextBatch => Consistent world nextBatch []
  | .responded nextBatch results => Consistent world world.token results ∧ nextBatch ≤ world.count ∧
      (nextBatch ≠ world.token → ∀ pair ∈ world.lost, pair ∈ witnesses results)

section Loading

variable {senderUser : UserId} {w : World} {req : Request} {view : RoomView} {roomId : RoomId} {user : UserId}
variable {since nextBatch : Nat} {results : List (RoomId × RoomResult)}
variable {sinceState : Option Members}

variable {kept : List UserId}

section

variable (consistent : Consistent w since results) (unloaded : ∀ result, (roomId, result) ∉ results)
include consistent unloaded

end

variable {seen : Nat}

end Loading

section Steps

variable {senderUser : UserId} {world w next : World} {label : Label} {nextBatch pos : Nat}
variable {results : List (RoomId × RoomResult)}

variable {phase : Phase}

theorem Stands.counted (stands : Stands w phase) : Stands { w with count := w.count + 1 } phase := by
  have more : ∀ {pos results}, Consistent w pos results → Consistent { w with count := w.count + 1 } pos results :=
    fun consistent => ⟨Nat.le_succ_of_le consistent.1, Nat.le_succ_of_le consistent.2.1, consistent.2.2⟩
  cases phase with
  | idle | looping request since | waiting request nextBatch => exact more stands
  | building request since nextBatch results => exact ⟨more stands.1, Nat.le_succ_of_le stands.2⟩
  | responded nextBatch results => exact ⟨more stands.1, Nat.le_succ_of_le stands.2.1, stands.2.2⟩

variable {result : RoomResult}

end Steps

namespace Sample

def room : RoomId := ⟨"!room:here"⟩

def me : UserId := ⟨"@me:here"⟩

def ann : UserId := ⟨"@ann:here"⟩

def bob : UserId := ⟨"@bob:here"⟩

def members : Members := [(me, ⟨"$me"⟩), (ann, ⟨"$ann"⟩), (bob, ⟨"$bob"⟩)]

def view (senders : List UserId) : RoomView where
  senders := senders
  readers := []
  shown := fun _ => true
  timelineMembers := []
  horizon := none
  current := members
  encrypted := false
  joinedSinceLastSync := false

def request : Request := ⟨true, false, false⟩

def sync (senders : List UserId) (received : Bool) : List Label :=
  [.nextCount, .request request false, .sample, .load room (view senders), .finish false,
    if received then .receive else .lose]

end Sample

end Phantom.Sync.Lazy
