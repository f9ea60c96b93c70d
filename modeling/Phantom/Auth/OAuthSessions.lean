import Mathlib.Data.List.Dedup
import Mathlib.Data.List.Sort
import Phantom.Lib.Runs
import Phantom.Matrix.Event

namespace Phantom.Auth.OAuth

open Phantom.Lib Phantom.Matrix Function

abbrev SessionId := String

/-- Of a session only what the tables depend on; `uniqueId` is what its provider makes of it, if it names one. -/
structure Session where
  sessId : Option SessionId
  uniqueId : Option String
  userId : Option UserId

structure Sessions where
  oauthidSession : SessionId → Option Session
  oauthuniqidOauthid : String → Option SessionId
  useridOauthid : UserId → Option (List SessionId)

namespace Sessions

def empty : Sessions := ⟨fun _ => none, fun _ => none, fun _ => none⟩

def getSessIdByUser (t : Sessions) (userId : UserId) : List SessionId := (t.useridOauthid userId).getD []

def getByUniqueId (t : Sessions) (uniqueId : String) : Option Session :=
  (t.oauthuniqidOauthid uniqueId).bind t.oauthidSession

/-- `sort_unstable` and `dedup`. -/
def listed (ids : List SessionId) : List SessionId := (ids.insertionSort (· ≤ ·)).dedup

def putLocked (t : Sessions) (session : Session) (uniqueId : Option String) : Sessions :=
  match session.sessId with
  | none => t
  | some sessId =>
    { oauthidSession := update t.oauthidSession sessId (some session)
      oauthuniqidOauthid := uniqueId.elim t.oauthuniqidOauthid fun uniqueId =>
        update t.oauthuniqidOauthid uniqueId (some sessId)
      useridOauthid := session.userId.elim t.useridOauthid fun userId =>
        update t.useridOauthid userId (some (listed (t.getSessIdByUser userId ++ [sessId]))) }

def put (t : Sessions) (session : Session) : Sessions := t.putLocked session session.uniqueId

section

variable (t : Sessions) (uniqueId : String) (build : Option UserId → Option Session)

/-- The session that `build` makes of the user of the identity's session, unless it fails. -/
def committed : Option Session :=
  build ((t.getByUniqueId uniqueId).bind Session.userId)

def commitIdentitySession : Sessions :=
  (t.committed uniqueId build).elim t fun session => t.putLocked session (some uniqueId)

end

/-- The row of a user: there is none when no session remains. -/
def remaining (sessIds : List SessionId) : Option (List SessionId) := if sessIds.isEmpty then none else some sessIds

def delete (t : Sessions) (sessId : SessionId) : Sessions :=
  match t.oauthidSession sessId with
  | none => t
  | some session =>
    { oauthidSession := update t.oauthidSession sessId none
      oauthuniqidOauthid := (session.uniqueId.filter fun uniqueId => t.oauthuniqidOauthid uniqueId = some sessId).elim
        t.oauthuniqidOauthid fun uniqueId => update t.oauthuniqidOauthid uniqueId none
      useridOauthid := session.userId.elim t.useridOauthid fun userId =>
        update t.useridOauthid userId (remaining ((t.getSessIdByUser userId).filter (· ≠ sessId))) }

inductive Call where
  | put (session : Session)
  | commit (uniqueId : String) (build : Option UserId → Option Session)
  | delete (sessId : SessionId)

def serve (t : Sessions) : Call → Sessions
  | .put session => t.put session
  | .commit uniqueId build => t.commitIdentitySession uniqueId build
  | .delete sessId => t.delete sessId

/-- The session that the call writes. -/
def written (t : Sessions) : Call → Option Session
  | .put session => some session
  | .commit uniqueId build => t.committed uniqueId build
  | .delete _ => none

def owner (t : Sessions) (sessId : SessionId) : Option UserId := (t.oauthidSession sessId).bind Session.userId

def IndexExact (t : Sessions) : Prop :=
  ∀ userId, (t.getSessIdByUser userId).Nodup ∧ ∀ sessId, sessId ∈ t.getSessIdByUser userId ↔ t.owner sessId = some userId

/-- The session that the call writes has the user of the one that it replaces, if that has one. -/
def KeepsUser (t : Sessions) (call : Call) : Prop :=
  ∀ session, t.written call = some session → ∀ sessId, session.sessId = some sessId → ∀ userId,
    t.owner sessId = some userId → session.userId = some userId

variable {t : Sessions} {sessId other : SessionId} {userId : UserId}

theorem mem_listed {ids : List SessionId} : other ∈ listed ids ↔ other ∈ ids := by
  simp [listed]

theorem getD_remaining (sessIds : List SessionId) : (remaining sessIds).getD [] = sessIds := by
  cases sessIds <;> rfl

theorem putLocked_exact_iff (exact_ : IndexExact t) (session : Session) (uniqueId : Option String) :
    IndexExact (t.putLocked session uniqueId) ↔ ∀ sessId, session.sessId = some sessId → ∀ userId,
      t.owner sessId = some userId → session.userId = some userId := by
  cases named : session.sessId with
  | none => simp [putLocked, named, exact_]
  | some sessId =>
    have owners : ∀ other, (t.putLocked session uniqueId).owner other =
        if other = sessId then session.userId else t.owner other := by
      intro other
      simp only [putLocked, named, owner, update_apply]
      split <;> rfl
    have lists : ∀ userId, (t.putLocked session uniqueId).getSessIdByUser userId =
        if session.userId = some userId then listed (t.getSessIdByUser userId ++
        [sessId]) else t.getSessIdByUser userId := by
      cases user : session.userId with
      | none => simp [putLocked, named, user, getSessIdByUser]
      | some user' =>
        simp only [putLocked, named, user, getSessIdByUser, Option.elim_some, update_apply, Option.some.injEq]
        grind
    constructor
    · rintro still sessId' ⟨⟩ userId owned
      by_contra moved
      have member := ((exact_ userId).2 sessId).mpr owned
      have after := ((still userId).2 sessId).mp (by rw [lists, if_neg moved]; exact member)
      rw [owners, if_pos rfl] at after
      exact moved after
    · intro keeps userId
      refine ⟨?_, fun other => ?_⟩
      · rw [lists]
        split
        · exact List.nodup_dedup _
        · exact (exact_ userId).1
      · have before := (exact_ userId).2 other
        grind [mem_listed]

theorem delete_exact (exact_ : IndexExact t) (sessId : SessionId) : IndexExact (t.delete sessId) := by
  cases held : t.oauthidSession sessId with
  | none => simpa [delete, held] using exact_
  | some session =>
    have owned : t.owner sessId = session.userId := by simp [owner, held]
    have lists : ∀ userId, (t.delete sessId).getSessIdByUser userId = (t.getSessIdByUser userId).filter (· ≠ sessId) := by
      intro userId
      by_cases user : session.userId = some userId
      · simp only [delete, held, user, getSessIdByUser, Option.elim_some, update_self]
        exact getD_remaining _
      · have absent : sessId ∉ t.getSessIdByUser userId := fun mem =>
          user (owned.symm.trans (((exact_ userId).2 sessId).mp mem))
        have whole : (t.getSessIdByUser userId).filter (· ≠ sessId) = t.getSessIdByUser userId :=
          List.filter_eq_self.mpr fun other mem => decide_eq_true fun same : other = sessId => absent (same ▸ mem)
        rw [whole]
        cases owner : session.userId with
        | none => simp [delete, held, owner, getSessIdByUser]
        | some user' =>
          have apart : userId ≠ user' := fun same => user (owner.trans (congrArg some same.symm))
          simp [delete, held, owner, getSessIdByUser, apart]
    intro userId
    refine ⟨?_, fun other => ?_⟩
    · rw [lists]
      exact (exact_ userId).1.filter _
    · rw [lists, List.mem_filter, (exact_ userId).2 other]
      simp only [delete, held, owner, update_apply]
      grind

theorem serve_exact_iff (t : Sessions) (call : Call) (exact_ : IndexExact t) :
    IndexExact (t.serve call) ↔ t.KeepsUser call := by
  cases call with
  | put session =>
    rw [serve, put, putLocked_exact_iff exact_, KeepsUser]
    simp [written]
  | commit uniqueId build =>
    rw [serve, commitIdentitySession, KeepsUser, written]
    cases t.committed uniqueId build with
    | none => simpa using exact_
    | some session => simp [putLocked_exact_iff exact_]
  | delete sessId => exact ⟨fun _ => nofun, fun _ => delete_exact exact_ sessId⟩

/-- The index is exact throughout a run if and only if no session that was written took the place of another user's. -/
theorem session_index_exact_iff (calls : List Call) :
    (∀ before, before <+: calls → IndexExact (before.foldl serve empty)) ↔
      ∀ before call, before ++ [call] <+: calls → (before.foldl serve empty).KeepsUser call := by
  refine foldl_holds_iff ?_ serve_exact_iff calls
  exact fun _ => ⟨.nil, fun _ => ⟨nofun, nofun⟩⟩

def signedIn (userId : UserId) : Call := .put ⟨some "session", none, some userId⟩

theorem session_of_both_users : let t := [signedIn ⟨"@a"⟩, signedIn ⟨"@b"⟩].foldl serve empty
    t.getSessIdByUser ⟨"@a"⟩ = ["session"] ∧ t.owner "session" = some ⟨"@b"⟩ := by
  decide

end Sessions

end Phantom.Auth.OAuth
