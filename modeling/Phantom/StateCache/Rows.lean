import Phantom.StateCache.Membership

namespace Phantom.StateCache

open Phantom.Matrix Function

theorem update_row {ι κ ν : Type} [DecidableEq ι] [DecidableEq κ] (table : ι → κ → ν) (kind other : ι)
    (key row : κ) (value : ν) : update table kind (update (table kind) key value) other row =
      if other = kind ∧ row = key then value else table other row := by
  by_cases sameKind : other = kind
  · subst sameKind
    rw [update_self]
    grind
  · rw [update_of_ne sameKind, if_neg fun both => sameKind both.1]

@[ext] structure Rows where
  byUser : Membership → Bool
  byRoom : Membership → Bool
  once : Bool

namespace Rows

def only (keep : Membership) (once : Bool) : Rows :=
  ⟨fun membership => membership = keep, fun membership => membership = keep, once⟩

def without (gone : Membership) (rows : Rows) : Rows where
  byUser := fun membership => membership ≠ gone && rows.byUser membership
  byRoom := fun membership => membership ≠ gone && rows.byRoom membership
  once := rows.once

structure Agree (rows : Rows) : Prop where
  atMostOne : ∀ membership other, rows.byUser membership → rows.byUser other → membership = other
  same : rows.byUser = rows.byRoom

theorem agree_only (keep : Membership) (once : Bool) : Agree (only keep once) where
  atMostOne := by
    intro membership other left right
    rw [of_decide_eq_true left, of_decide_eq_true right]
  same := rfl

theorem agree_without {rows : Rows} (agree : Agree rows) (gone : Membership) : Agree (rows.without gone) where
  atMostOne := by
    grind [Agree.atMostOne, without]
  same := by
    simp only [without, agree.same]

end Rows

def rowsOf (userId : UserId) (roomId : RoomId) (tables : Tables) : Rows where
  byUser := fun membership => isListed userId roomId membership tables
  byRoom := fun membership => (tables.roomuserid membership (roomId, userId)).isSome
  once := onceJoined userId roomId tables

section Tables

variable {userId user : UserId} {roomId room : RoomId} {membership keep : Membership} {t : Tables}
variable {s : StrippedState} {count : Option ℕ}

theorem rowsOf_removeRows :
    rowsOf userId roomId (removeRows userId roomId membership t) = (rowsOf userId roomId t).without membership := by
  ext other
  · by_cases same : other = membership <;> simp [rowsOf, isListed, removeRows, update_row, Rows.without, same]
  · by_cases same : other = membership <;> simp [rowsOf, removeRows, update_row, Rows.without, same]
  · rfl

theorem rowsOf_marked : rowsOf userId roomId (clearOtherMemberships userId roomId keep
      (insertRows userId roomId keep s count t)) = .only keep (onceJoined userId roomId t) := by
  ext other
  · cases keep <;> cases other <;>
      simp [rowsOf, isListed, clearOtherMemberships, removeRows, insertRows, update_row, Rows.only]
  · cases keep <;> cases other <;> simp [rowsOf, clearOtherMemberships, removeRows, insertRows, update_row, Rows.only]
  · cases keep <;> rfl

theorem rowsOf_markCounted :
    rowsOf userId roomId (markCounted userId roomId keep s t) = .only keep (onceJoined userId roomId t) := by
  rw [markCounted, rowsOf_marked]
  rfl

section Apart

variable (apart : ¬ (user = userId ∧ room = roomId))

include apart

theorem keys_apart : (userId, roomId) ≠ (user, room) ∧ (roomId, userId) ≠ (room, user) := by
  grind

theorem rowsOf_removeRows_apart :
    rowsOf userId roomId (removeRows user room membership t) = rowsOf userId roomId t := by
  obtain ⟨byUser, byRoom⟩ := keys_apart apart
  ext other
  · simp only [rowsOf, isListed, removeRows, update_row, byUser, and_false, if_false]
  · simp only [rowsOf, removeRows, update_row, byRoom, and_false, if_false]
  · rfl

theorem rowsOf_insertRows_apart :
    rowsOf userId roomId (insertRows user room membership s count t) = rowsOf userId roomId t := by
  obtain ⟨byUser, byRoom⟩ := keys_apart apart
  ext other
  · simp only [rowsOf, isListed, insertRows, update_row, byUser, and_false, if_false]
  · simp only [rowsOf, insertRows, update_row, byRoom, and_false, if_false]
  · rfl

theorem rowsOf_clear_apart :
    rowsOf userId roomId (clearOtherMemberships user room keep t) = rowsOf userId roomId t := by
  cases keep <;> simp [clearOtherMemberships, rowsOf_removeRows_apart apart]

theorem rowsOf_marked_apart :
    rowsOf userId roomId (clearOtherMemberships user room keep (insertRows user room keep s count t)) =
      rowsOf userId roomId t := by
  rw [rowsOf_clear_apart apart, rowsOf_insertRows_apart apart]

theorem rowsOf_markCounted_apart :
    rowsOf userId roomId (markCounted user room keep s t) = rowsOf userId roomId t := by
  rw [markCounted, rowsOf_marked_apart apart]
  rfl

theorem rowsOf_once_apart : rowsOf userId roomId (markAsOnceJoined user room t) = rowsOf userId roomId t := by
  have byRoom : (roomId, userId) ≠ (room, user) := fun same =>
    apart ⟨(Prod.mk.inj same).2.symm, (Prod.mk.inj same).1.symm⟩
  ext other
  · rfl
  · rfl
  · exact update_of_ne byRoom _ _

end Apart

end Tables

def Rows.read (rows : Rows) : Option MembershipState :=
  membershipOf (rows.byUser .joined) (rows.byUser .left) (rows.byUser .knocked) (rows.byUser .invited) rows.once

theorem userMembership_eq (userId : UserId) (roomId : RoomId) (t : Tables) :
    userMembership userId roomId t = (rowsOf userId roomId t).read := rfl

end Phantom.StateCache
