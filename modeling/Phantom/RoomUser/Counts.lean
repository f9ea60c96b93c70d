import Phantom.Lib.Task
import Phantom.Matrix.Event

namespace Phantom.RoomUser

open Phantom.Lib Phantom.Matrix

def maxCount : ℕ := 2 ^ 64 - 1

def saturatingAdd (count add : ℕ) : ℕ := min (count + add) maxCount

/-- The rows of the users in the rooms, the server's counter, and who holds the lock of a user. -/
structure Tables where
  counter : ℕ
  userroomidHighlightcount : UserId → RoomId → Option ℕ
  userroomidNotificationcount : UserId → RoomId → Option ℕ
  roomuseridLastnotificationread : UserId → RoomId → Option ℕ
  countMutex : UserId → Option ℕ

def Tables.empty : Tables := ⟨0, fun _ _ => none, fun _ _ => none, fun _ _ => none, fun _ => none⟩

def storedCount (row : Option ℕ) : ℕ := row.getD 0

namespace Tables

variable (userId : UserId) (roomId : RoomId) (tables : Tables)

def notificationCount : ℕ := storedCount (tables.userroomidNotificationcount userId roomId)

def highlightCount : ℕ := storedCount (tables.userroomidHighlightcount userId roomId)

def lastNotificationRead : ℕ := storedCount (tables.roomuseridLastnotificationread userId roomId)

def putRow (rows : UserId → RoomId → Option ℕ) (count : ℕ) : UserId → RoomId → Option ℕ :=
  Function.update rows userId (Function.update (rows userId) roomId (some count))

def putHighlight (count : ℕ) (tables : Tables) : Tables :=
  { tables with userroomidHighlightcount := putRow userId roomId tables.userroomidHighlightcount count }

def putNotification (count : ℕ) (tables : Tables) : Tables :=
  { tables with userroomidNotificationcount := putRow userId roomId tables.userroomidNotificationcount count }

def putLastRead (count : ℕ) (tables : Tables) : Tables :=
  { tables with roomuseridLastnotificationread := putRow userId roomId tables.roomuseridLastnotificationread count }

def lock (job : ℕ) (tables : Tables) : Tables :=
  { tables with countMutex := Function.update tables.countMutex userId (some job) }

def unlock : Tables :=
  { tables with countMutex := Function.update tables.countMutex userId none }

def counted : Tables := { tables with counter := tables.counter + 1 }

end Tables

inductive Ran where
  | reset (userId : UserId) (roomId : RoomId) (stamp : ℕ)
  | increment (userId : UserId) (roomId : RoomId) (eventCount : ℕ) (highlight : Bool)
deriving DecidableEq

def Ran.userId : Ran → UserId
  | reset userId _ _ => userId
  | increment userId _ _ _ => userId

abbrev CountTask := Task Unit Ran Tables

variable (userId : UserId)

def acquire : CountTask Unit :=
  .step (fun job _ tables => if tables.countMutex userId = none then some ([], tables.lock userId job) else none)
    (fun _ _ => .done ())

def release (ran : Ran) : CountTask Unit := Task.write [ran] (Tables.unlock userId)

def nextCount : CountTask ℕ :=
  .step (fun _ _ tables => some ([], tables.counted)) fun _ tables => .done (tables.counter + 1)

variable (roomId : RoomId)

def resetNotificationCounts : CountTask Unit := do
  acquire userId
  Task.write [] (Tables.putHighlight userId roomId 0)
  Task.write [] (Tables.putNotification userId roomId 0)
  let count ← nextCount
  Task.write [] (Tables.putLastRead userId roomId count)
  release userId (.reset userId roomId count)

def increment (stored : Tables → ℕ) (put : ℕ → Tables → Tables) : CountTask Unit := do
  let old ← Task.read stored
  Task.write [] (put (saturatingAdd old 1))

def incrementNotificationCounts (eventCount : ℕ) (highlight : Bool) :
    CountTask Unit := do
  acquire userId
  let lastRead ← Task.read (Tables.lastNotificationRead userId roomId)
  if lastRead > eventCount then
    release userId (.increment userId roomId eventCount highlight)
  else
    increment (Tables.notificationCount userId roomId) (Tables.putNotification userId roomId)
    if highlight then
      increment (Tables.highlightCount userId roomId) (Tables.putHighlight userId roomId)
    release userId (.increment userId roomId eventCount highlight)

inductive Call where
  | reset (userId : UserId) (roomId : RoomId)
  | increment (userId : UserId) (roomId : RoomId) (eventCount : ℕ) (highlight : Bool)
deriving DecidableEq

def Call.task : Call → CountTask Unit
  | reset userId roomId => resetNotificationCounts userId roomId
  | increment userId roomId eventCount highlight => incrementNotificationCounts userId roomId eventCount highlight

/-- The calls since the last reset, and its stamp. -/
structure Since where
  stamp : ℕ
  increments : List (ℕ × Bool)
deriving DecidableEq

def Since.next (since : Since) : Ran → Since
  | .reset user room stamp => if user = userId ∧ room = roomId then ⟨stamp, []⟩ else since
  | .increment user room eventCount highlight =>
    if user = userId ∧ room = roomId then { since with increments := since.increments ++ [(eventCount, highlight)] }
    else since

variable (ran : List Ran)

def sinceReset : Since := ran.foldl (Since.next userId roomId)
    ⟨0, []⟩

def Since.unread (since : Since) : List (ℕ × Bool) := since.increments.filter fun inc => since.stamp ≤ inc.1

def unreadNotifications : ℕ :=
  (sinceReset userId roomId ran).unread.length

def unreadHighlights : ℕ :=
  (sinceReset userId roomId ran).unread.countP Prod.snd

def Ran.eventCountFor : Ran → Option ℕ
  | .reset _ _ _ => none
  | .increment user room eventCount _ => if user = userId ∧ room = roomId then some eventCount else none

def eventCounts : List ℕ :=
  ran.filterMap (Ran.eventCountFor userId roomId)

/-- Values of the server's counter: it has 64 bits, begins at 1 and gives no value twice. -/
structure DrawnOnce (counts : List ℕ) : Prop where
  distinct : counts.Nodup
  drawn : ∀ count ∈ counts, 0 < count ∧ count ≤ maxCount

end Phantom.RoomUser
