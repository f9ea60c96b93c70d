import Mathlib.Order.Interval.Finset.Nat
import Phantom.Lib.Guarded
import Phantom.Lib.Serial
import Phantom.RoomUser.Counts

namespace Phantom.RoomUser

open Phantom.Lib Phantom.Matrix Function

abbrev CountWorld := World Ran Tables

def CountWorld.ran (world : CountWorld) : List Ran := world.trace.map Prod.snd

structure UserRows where
  highlight : RoomId → Option ℕ
  notification : RoomId → Option ℕ
  lastRead : RoomId → Option ℕ
  since : RoomId → Since

/-- The stored counts are the numbers of unread events. -/
structure UserRows.ExactIn (rows : UserRows) (roomId : RoomId) : Prop where
  notification : storedCount (rows.notification roomId) = min (rows.since roomId).unread.length maxCount
  highlight : storedCount (rows.highlight roomId) = min ((rows.since roomId).unread.countP Prod.snd) maxCount
  lastRead : storedCount (rows.lastRead roomId) = (rows.since roomId).stamp

def rowsOf (world : CountWorld) (userId : UserId) : UserRows where
  highlight := world.store.userroomidHighlightcount userId
  notification := world.store.userroomidNotificationcount userId
  lastRead := world.store.roomuseridLastnotificationread userId
  since := fun roomId => sinceReset userId roomId (CountWorld.ran world)

def countGuard : Guard UserId Ran Tables UserRows where
  holder tables := tables.countMutex
  part := rowsOf
  Good _ rows := ∀ roomId, rows.ExactIn roomId

variable (rows : UserRows) (roomId : RoomId)

def UserRows.putHighlight (count : ℕ) : UserRows :=
  { rows with highlight := update rows.highlight roomId (some count) }

def UserRows.putNotification (count : ℕ) : UserRows :=
  { rows with notification := update rows.notification roomId (some count) }

def UserRows.putLastRead (count : ℕ) : UserRows :=
  { rows with lastRead := update rows.lastRead roomId (some count) }

section Steps

variable {w : CountWorld} {job : ℕ} {userId : UserId} {roomId : RoomId} {t : Tables} {ran : Ran}

theorem sinceReset_append {before : List Ran} :
    sinceReset userId roomId (before ++ [ran]) = (sinceReset userId roomId before).next userId roomId ran := by
  rw [sinceReset, List.foldl_append, ← sinceReset]
  rfl

theorem ran_after {events : List Ran} : CountWorld.ran (w.after job events t) = CountWorld.ran w ++ events := by
  simp [CountWorld.ran]

variable (count : ℕ)

theorem changes_putHighlight : countGuard.Changes userId (Tables.putHighlight userId roomId count)
    (fun rows => rows.putHighlight roomId count) := by
  refine fun w job => ⟨rfl, funext fun user => ?_⟩
  by_cases same : user = userId <;>
    simp [countGuard, rowsOf, ran_after, Tables.putHighlight, Tables.putRow, UserRows.putHighlight, same]

theorem changes_putNotification : countGuard.Changes userId (Tables.putNotification userId roomId count)
    (fun rows => rows.putNotification roomId count) := by
  refine fun w job => ⟨rfl, funext fun user => ?_⟩
  by_cases same : user = userId <;>
    simp [countGuard, rowsOf, ran_after, Tables.putNotification, Tables.putRow, UserRows.putNotification, same]

theorem changes_putLastRead :
    countGuard.Changes userId (Tables.putLastRead userId roomId count) (fun rows => rows.putLastRead roomId count) := by
  refine fun w job => ⟨rfl, funext fun user => ?_⟩
  by_cases same : user = userId <;>
    simp [countGuard, rowsOf, ran_after, Tables.putLastRead, Tables.putRow, UserRows.putLastRead, same]

theorem rows_silent (highlight : t.userroomidHighlightcount = w.store.userroomidHighlightcount)
    (notification : t.userroomidNotificationcount = w.store.userroomidNotificationcount)
    (lastRead : t.roomuseridLastnotificationread = w.store.roomuseridLastnotificationread) :
    rowsOf (w.after job [] t) = rowsOf w := by
  funext user
  simp only [rowsOf, ran_after, World.after_store, List.append_nil, highlight, notification, lastRead]

theorem changes_counted : countGuard.Changes userId Tables.counted id :=
  fun _ _ => ⟨rfl, (rows_silent rfl rfl rfl).trans (update_eq_self _ _).symm⟩

end Steps

section Rules

variable {w : CountWorld} {job : ℕ} {userId : UserId} {roomId : RoomId} {rows : UserRows}
  {α : Type} {Returned : α → CountWorld → Prop}
variable {rest : Unit → CountTask α}

theorem wp_acquired (outside : countGuard.Outside job w)
    (more : ∀ (later : CountWorld) rows, countGuard.Holding job userId rows later →
      (∀ roomId, rows.ExactIn roomId) → countGuard.protocol.wp job Returned (rest ()) later) :
    countGuard.protocol.wp job Returned (acquire userId >>= rest) w := by
  apply Guard.wp_acquire outside
  · intro later _ events store taken
    split at taken
    · next free =>
      cases taken
      exact ⟨free, rfl, rows_silent rfl rfl rfl⟩
    · cases taken
  · exact fun later rows _ _ => more later rows

theorem wp_put {change : Tables → Tables} {act : UserRows → UserRows} (changes : countGuard.Changes userId change act)
    (holding : countGuard.Holding job userId rows w) (more : ∀ later, countGuard.Holding job userId (act rows) later →
      countGuard.protocol.wp job Returned (rest ()) later) :
    countGuard.protocol.wp job Returned (Task.write [] change >>= rest) w :=
  Guard.wp_change changes holding (fun _ _ => rfl) fun _ _ => more

theorem wp_nextCount {rest : ℕ → CountTask α} (holding : countGuard.Holding job userId rows w)
    (more : ∀ count later, countGuard.Holding job userId rows later →
      countGuard.protocol.wp job Returned (rest count) later) :
    countGuard.protocol.wp job Returned (nextCount >>= rest) w :=
  Guard.wp_change changes_counted holding (fun _ _ => rfl) fun _ _ => more _

variable (reads : UserRows → ℕ)

theorem wp_readRows {view : Tables → ℕ} {rest : ℕ → CountTask α}
    (viewed : ∀ later : CountWorld, view later.store = reads (rowsOf later userId))
    (holding : countGuard.Holding job userId rows w)
    (more : ∀ later, countGuard.Holding job userId rows later → countGuard.protocol.wp job Returned
    (rest (reads rows)) later) :
    countGuard.protocol.wp job Returned (Task.read view >>= rest) w := by
  apply Protocol.wp_read Guard.holding_stable holding
  rintro later _ ⟨held, rfl⟩
  rw [viewed later]
  exact more later ⟨held, rfl⟩

theorem wp_increment {stored : Tables → ℕ} {put : ℕ → Tables → Tables} {act : ℕ → UserRows → UserRows}
    (viewed : ∀ later : CountWorld, stored later.store = reads (rowsOf later userId))
    (changes : ∀ count, countGuard.Changes userId (put count) (act count))
    (holding : countGuard.Holding job userId rows w)
    (more : ∀ later, countGuard.Holding job userId (act (saturatingAdd (reads rows) 1) rows) later →
    countGuard.protocol.wp job Returned (rest ()) later) :
    countGuard.protocol.wp job Returned (increment stored put >>= rest) w := by
  have spec : countGuard.protocol.wp job Returned
      (Task.read stored >>= fun old => Task.write [] (put (saturatingAdd old 1)) >>= rest) w :=
    wp_readRows reads viewed holding fun _ holding => wp_put (changes _) holding more
  exact spec

def UserRows.finish (rows : UserRows) (userId : UserId) (ran : Ran) : UserRows :=
  { rows with since := fun roomId => (rows.since roomId).next userId roomId ran }

theorem next_other {ran : Ran} {since : Since} {other : UserId} (ne : other ≠ ran.userId) :
    since.next other roomId ran = since := by
  cases ran <;> exact if_neg fun same => ne same.1.symm

theorem wp_released {ran : Ran} (holding : countGuard.Holding job ran.userId rows w)
    (exact_ : ∀ roomId, (rows.finish ran.userId ran).ExactIn roomId) :
    countGuard.protocol.wp job (fun _ => countGuard.Outside job) (release ran.userId ran) w := by
  apply Guard.wp_release holding
  · rintro later _ events store rfl taken
    cases taken
    refine ⟨rfl, fun other ne => ?_, ?_⟩
    · simp only [countGuard, rowsOf, ran_after, sinceReset_append, next_other ne]
      rfl
    · have same : countGuard.part (later.after job [ran] (later.store.unlock ran.userId)) ran.userId =
          (rowsOf later ran.userId).finish ran.userId ran := by
        simp only [countGuard, rowsOf, ran_after, sinceReset_append, UserRows.finish]
        rfl
      rw [same]
      exact exact_
  · exact fun _ _ last outside => Protocol.wp_return Guard.outside_stable outside

end Rules

section Calls

variable {w : CountWorld} {job : ℕ} {userId : UserId} {roomId room : RoomId} {rows : UserRows}
variable {eventCount : ℕ} {highlight : Bool}

theorem UserRows.ExactIn.congr {after : UserRows} (exact_ : rows.ExactIn room)
    (notification : after.notification room = rows.notification room)
    (highlight : after.highlight room = rows.highlight room) (lastRead : after.lastRead room = rows.lastRead room)
    (since : after.since room = rows.since room) : after.ExactIn room := by
  constructor
  · rw [notification, since, exact_.notification]
  · rw [highlight, since, exact_.highlight]
  · rw [lastRead, since, exact_.lastRead]

theorem exact_reset (good : ∀ roomId, rows.ExactIn roomId) (roomId : RoomId) (stamp : ℕ) (room : RoomId) :
    ((((rows.putHighlight roomId 0).putNotification roomId 0).putLastRead roomId stamp).finish userId
      (.reset userId roomId stamp)).ExactIn room := by
  by_cases same : room = roomId
  · subst same
    constructor <;> simp [UserRows.finish, UserRows.putHighlight, UserRows.putNotification, UserRows.putLastRead,
      Since.next, Since.unread, storedCount]
  · apply (good room).congr
    · exact update_of_ne same _ _
    · exact update_of_ne same _ _
    · exact update_of_ne same _ _
    · exact if_neg fun both => same both.2.symm

theorem reset_spec (outside : countGuard.Outside job w) :
    countGuard.protocol.wp job (fun _ => countGuard.Outside job) (resetNotificationCounts userId roomId) w := by
  apply wp_acquired outside
  intro later rows holding good
  apply wp_put (changes_putHighlight 0) holding
  intro later holding
  apply wp_put (changes_putNotification 0) holding
  intro later holding
  apply wp_nextCount holding
  intro stamp later holding
  apply wp_put (changes_putLastRead stamp) holding
  intro later holding
  exact @wp_released _ _ _ (.reset userId roomId stamp) holding (exact_reset good roomId stamp)

variable {since : Since}

theorem next_increment : (since.next userId roomId (.increment userId roomId eventCount highlight)).unread =
      if since.stamp ≤ eventCount then since.unread ++ [(eventCount, highlight)] else since.unread := by
  grind [Since.next, Since.unread]

theorem stamp_increment :
    (since.next userId roomId (.increment userId roomId eventCount highlight)).stamp = since.stamp := by
  rw [Since.next, if_pos ⟨rfl, rfl⟩]

theorem exact_skipped (good : ∀ roomId, rows.ExactIn roomId)
    (below : eventCount < (rows.since roomId).stamp) (room : RoomId) :
    (rows.finish userId (.increment userId roomId eventCount highlight)).ExactIn room := by
  by_cases same : room = roomId
  · subst same
    obtain ⟨notifications, highlights, lastRead⟩ := good room
    constructor
    · grind [next_increment, UserRows.finish]
    · grind [next_increment, UserRows.finish]
    · rw [UserRows.finish, stamp_increment]
      exact lastRead
  · exact (good room).congr rfl rfl rfl (if_neg fun both => same both.2.symm)

theorem saturatingAdd_min (count : ℕ) : saturatingAdd (min count maxCount) 1 = min (count + 1) maxCount := by
  rw [saturatingAdd]
  omega

def UserRows.count (rows : UserRows) (roomId : RoomId) (highlight : Bool) : UserRows :=
  let counted := rows.putNotification roomId (saturatingAdd (storedCount (rows.notification roomId)) 1)
  if highlight then counted.putHighlight roomId (saturatingAdd (storedCount (rows.highlight roomId)) 1) else counted

theorem exact_counted (good : ∀ roomId, rows.ExactIn roomId)
    (unread : (rows.since roomId).stamp ≤ eventCount) (room : RoomId) :
    ((rows.count roomId highlight).finish userId (.increment userId roomId eventCount highlight)).ExactIn room := by
  have since : (rows.count roomId highlight).since = rows.since := by cases highlight <;> rfl
  have lastReads : (rows.count roomId highlight).lastRead = rows.lastRead := by cases highlight <;> rfl
  by_cases same : room = roomId
  · subst same
    obtain ⟨notifications, highlights, lastRead⟩ := good room
    have notification : (rows.count room highlight).notification room =
        some (saturatingAdd (storedCount (rows.notification room)) 1) := by
      cases highlight <;> exact update_self _ _ _
    constructor
    · rw [UserRows.finish, since, next_increment, if_pos unread, List.length_append, notification, notifications,
        saturatingAdd_min]
      rfl
    · rw [UserRows.finish, since, next_increment, if_pos unread, List.countP_append]
      cases highlight with
      | false => exact highlights
      | true =>
        have stored : (rows.count room true).highlight room =
            some (saturatingAdd (storedCount (rows.highlight room)) 1) := update_self _ _ _
        rw [stored, highlights, saturatingAdd_min]
        rfl
    · rw [UserRows.finish, since, lastReads, stamp_increment]
      exact lastRead
  · apply (good room).congr
    · cases highlight <;> exact update_of_ne same _ _
    · cases highlight with
      | false => rfl
      | true => exact update_of_ne same _ _
    · exact congrFun lastReads room
    · rw [UserRows.finish, since]
      exact if_neg fun both => same both.2.symm

theorem increment_spec (outside : countGuard.Outside job w) :
    countGuard.protocol.wp job (fun _ => countGuard.Outside job)
      (incrementNotificationCounts userId roomId eventCount highlight) w := by
  apply wp_acquired outside
  intro later rows holding good
  apply wp_readRows (fun rows => storedCount (rows.lastRead roomId)) (fun _ => rfl) holding
  intro later holding
  rw [(good roomId).lastRead]
  split
  · next below =>
    exact @wp_released _ _ _ (.increment userId roomId eventCount highlight) holding (exact_skipped good below)
  · next unread =>
    have counted : ∀ room, ((rows.count roomId highlight).finish userId
        (.increment userId roomId eventCount highlight)).ExactIn room :=
      fun room => exact_counted good (Nat.not_lt.mp unread) room
    apply wp_increment (fun rows => storedCount (rows.notification roomId)) (fun _ => rfl) changes_putNotification holding
    intro later holding
    cases highlight with
    | false => exact @wp_released _ _ _ (.increment userId roomId eventCount false) holding counted
    | true =>
      apply wp_increment (fun rows => storedCount (rows.highlight roomId)) (fun _ => rfl) changes_putHighlight holding
      intro later holding
      exact @wp_released _ _ _ (.increment userId roomId eventCount true) holding counted

theorem increments_sublist (ran : List Ran) :
    ((sinceReset userId roomId ran).increments.map Prod.fst).Sublist (eventCounts userId roomId ran) := by
  induction ran using List.reverseRecOn with
  | nil => exact .slnil
  | append_singleton before call ih =>
    rw [sinceReset_append, eventCounts, List.filterMap_append, ← eventCounts]
    cases call with
    | reset user room stamp =>
      refine .trans ?_ (List.sublist_append_left _ _)
      by_cases same : user = userId ∧ room = roomId
      · simp [Since.next, same]
      · simpa [Since.next, same] using ih
    | increment user room eventCount highlight =>
      by_cases same : user = userId ∧ room = roomId <;> simpa [Since.next, Ran.eventCountFor, same] using ih

theorem DrawnOnce.unread_le {ran : List Ran} (drawn : DrawnOnce (eventCounts userId roomId ran)) :
    unreadNotifications userId roomId ran ≤ maxCount := by
  have part : ((sinceReset userId roomId ran).unread.map Prod.fst).Sublist (eventCounts userId roomId ran) :=
    (List.filter_sublist.map Prod.fst).trans (increments_sublist ran)
  calc unreadNotifications userId roomId ran
      = ((sinceReset userId roomId ran).unread.map Prod.fst).toFinset.card := by
        rw [List.toFinset_card_of_nodup (drawn.distinct.sublist part), List.length_map, unreadNotifications]
    _ ≤ (Finset.Icc 1 maxCount).card := by
        refine Finset.card_le_card fun count mem => Finset.mem_Icc.mpr ?_
        exact drawn.drawn count (part.subset (List.mem_toFinset.mp mem))
    _ = maxCount := by simp

end Calls

abbrev CountPool := Pool Call Unit Ran Tables Unit

section Runs

variable {turns : List (Turn Call Unit)} {pool : CountPool}

theorem call_spec (call : Call) {w : CountWorld} {job : ℕ} (outside : countGuard.Outside job w) :
    countGuard.protocol.wp job (fun _ => countGuard.Outside job) call.task w := by
  cases call with
  | reset userId roomId => exact reset_spec outside
  | increment userId roomId eventCount highlight => exact increment_spec outside

theorem empty_exact (userId : UserId) : countGuard.Good userId (countGuard.part ⟨Tables.empty, []⟩ userId) :=
  fun _ => ⟨rfl, rfl, rfl⟩

theorem unread_counts_stored (run : Run (Pool.Step Call.task fun _ _ => True) (Pool.idle .empty) turns pool)
    (userId : UserId)
    (quiet : pool.world.store.countMutex userId = none ∨ ∀ job < pool.jobs.length, (pool.returned job).isSome)
    (roomId : RoomId) : pool.world.store.notificationCount userId roomId =
        min (unreadNotifications userId roomId (CountWorld.ran pool.world)) maxCount ∧
      pool.world.store.highlightCount userId roomId =
        min (unreadHighlights userId roomId (CountWorld.ran pool.world)) maxCount := by
  obtain ⟨sound, holders⟩ :=
    Guard.run_sound (fun job call world => call_spec call) (fun _ => rfl) (fun key _ => empty_exact key) run
  have free : pool.world.store.countMutex userId = none := by
    rcases quiet with free | returned
    · exact free
    · exact Guard.free_of_returned sound holders returned userId
  obtain ⟨notification, highlight, _⟩ := sound.inv userId free roomId
  exact ⟨notification, highlight⟩

/-- While nobody holds the lock of a user, and so once all calls are over, the stored counts are the numbers
    of unread events. -/
theorem unread_counts_exact (run : Run (Pool.Step Call.task fun _ _ => True) (Pool.idle .empty) turns pool)
    (userId : UserId)
    (quiet : pool.world.store.countMutex userId = none ∨ ∀ job < pool.jobs.length, (pool.returned job).isSome)
    (roomId : RoomId) (drawn : DrawnOnce (eventCounts userId roomId (CountWorld.ran pool.world))) :
    pool.world.store.notificationCount userId roomId = unreadNotifications userId roomId (CountWorld.ran pool.world) ∧
      pool.world.store.highlightCount userId roomId = unreadHighlights userId roomId (CountWorld.ran pool.world) := by
  obtain ⟨notification, highlight⟩ := unread_counts_stored run userId quiet roomId
  have bounded := drawn.unread_le
  have fewer : unreadHighlights userId roomId (CountWorld.ran pool.world) ≤
      unreadNotifications userId roomId (CountWorld.ran pool.world) := List.countP_le_length
  exact ⟨notification.trans (min_eq_left bounded), highlight.trans (min_eq_left (fewer.trans bounded))⟩

end Runs

namespace Sample

def alice : UserId := ⟨"@alice:here"⟩

def room : RoomId := ⟨"!room:here"⟩

def visit : List (Turn Call Unit) :=
  [.arrive (.increment alice room 3 false), .arrive (.reset alice room), .arrive (.reset alice room),
    .arrive (.increment alice room 1 true), .arrive (.increment alice room 2 true)] ++
    [0, 0, 0, 0, 0, 1, 1, 1, 1, 1, 1, 2, 2, 2, 2, 2, 2, 3, 3, 3, 4, 4, 4, 4, 4, 4, 4].map (Turn.take · ())

theorem unread_counts_exact_visit :
    ∃ pool, Run (Pool.Step Call.task fun _ _ => True) (Pool.idle .empty) visit pool ∧
      pool.world.store.notificationCount alice room = 1 ∧ pool.world.store.highlightCount alice room = 1 := by
  apply Pool.exists_run_of_play (fun pool => pool.world.store.countMutex alice = none ∧
    CountWorld.ran pool.world = [.increment alice room 3 false, .reset alice room 1, .reset alice room 2,
      .increment alice room 1 true, .increment alice room 2 true]) (by decide +kernel)
  rintro pool run ⟨free, ran⟩
  have drawn : DrawnOnce (eventCounts alice room (CountWorld.ran pool.world)) := by
    rw [ran]
    exact ⟨by decide, by decide⟩
  obtain ⟨notification, highlight⟩ := unread_counts_exact run alice (Or.inl free) room drawn
  rw [ran] at notification highlight
  exact ⟨notification, highlight⟩

end Sample

end Phantom.RoomUser
