import Phantom.Lib.History
import Phantom.StateCache.Rows

namespace Phantom.StateCache

open Phantom.Lib Phantom.Matrix

/-- Nobody is ignored, and nobody is made to forget a room by leaving it. -/
structure Server.Plain (server : Server) : Prop where
  ignored : ∀ sender userId, server.userIsIgnored sender userId = false
  forced : server.forgetForcedUponLeave = false

def Fine (server : Server) (tables : Tables) : Label → Prop
  | .update call =>
    match call.membership with
    | .join | .invite | .knock => True
    | .leave => server.forgets call = false
    | .ban => server.forgets call = true ∧ onceJoined call.userId call.roomId tables = true
    | .custom _ => False
  | .forget roomId userId =>
    onceJoined userId roomId tables = false ∧ isListed userId roomId .joined tables = false ∧
      isListed userId roomId .knocked tables = false ∧ isListed userId roomId .invited tables = false

/-- The tables agree with each other and with what was said of every pair. -/
structure Agrees (tables : Tables) (labels : List Label) : Prop where
  consistent : Consistent tables
  membership : ∀ userId roomId, userMembership userId roomId tables = lastUpdate userId roomId labels

theorem consistent_iff {t : Tables} : Consistent t ↔ ∀ userId roomId, (rowsOf userId roomId t).Agree := by
  constructor
  · intro consistent userId roomId
    exact ⟨consistent.atMostOne userId roomId, funext fun kind => consistent.samePairs kind userId roomId⟩
  · intro agree
    exact ⟨fun userId roomId => (agree userId roomId).atMostOne,
      fun kind userId roomId => congrFun (agree userId roomId).same kind⟩

section Steps

variable {server : Server} {t : Tables} {label : Label} {userId : UserId} {roomId : RoomId} (call : Update)

theorem rowsOf_join (joins : call.membership = .join) :
    rowsOf call.userId call.roomId (updateMembership server call t) = .only .joined true := by
  rw [updateMembership, joins]
  rw [markAsJoined, rowsOf_marked]
  congr 1
  split
  · next once => exact once
  · exact Function.update_self _ _ _

theorem rowsOf_leave (leaves : call.membership = .leave ∨ call.membership = .ban) :
    rowsOf call.userId call.roomId (updateMembership server call t) =
      if server.forgets call then (Rows.only .left (onceJoined call.userId call.roomId t)).without .left
      else .only .left (onceJoined call.userId call.roomId t) := by
  have left : rowsOf call.userId call.roomId (markAsLeft call.userId call.roomId t) =
      .only .left (onceJoined call.userId call.roomId t) := rowsOf_markCounted
  grind [rowsOf_removeRows, updateMembership, forget]

theorem rowsOf_update_apart (apart : ¬ (call.userId = userId ∧ call.roomId = roomId)) :
    rowsOf userId roomId (updateMembership server call t) = rowsOf userId roomId t := by
  have left : rowsOf userId roomId (markAsLeft call.userId call.roomId t) = rowsOf userId roomId t :=
    rowsOf_markCounted_apart apart
  have leaves : rowsOf userId roomId
      (if server.forgets call then forget call.userId call.roomId (markAsLeft call.userId call.roomId t)
        else markAsLeft call.userId call.roomId t) = rowsOf userId roomId t := by
    grind [rowsOf_removeRows_apart, forget]
  rw [updateMembership]
  split
  · grind [rowsOf_marked_apart, rowsOf_once_apart, markAsJoined]
  · split
    · rfl
    · exact rowsOf_markCounted_apart apart
  · exact leaves
  · exact leaves
  · exact rowsOf_markCounted_apart apart
  · rfl

theorem rowsOf_step_apart (apart : label.tells userId roomId = none) :
    rowsOf userId roomId (step server t label) = rowsOf userId roomId t := by
  cases label with
  | update call =>
    apply rowsOf_update_apart
    grind [Label.tells]
  | forget room user =>
    apply rowsOf_removeRows_apart
    grind [Label.tells]

theorem agree_update (call : Update) (agree : (rowsOf call.userId call.roomId t).Agree) :
    (rowsOf call.userId call.roomId (updateMembership server call t)).Agree := by
  cases told : call.membership with
  | join =>
    rw [rowsOf_join call told]
    exact Rows.agree_only _ _
  | invite =>
    grind [rowsOf_markCounted, Rows.agree_only, updateMembership, markAsInvited]
  | knock =>
    rw [updateMembership, told]
    rw [markAsKnocked, rowsOf_markCounted]
    exact Rows.agree_only _ _
  | leave | ban =>
    grind [rowsOf_leave, Rows.agree_without, Rows.agree_only]
  | custom name =>
    rw [updateMembership, told]
    exact agree

theorem consistent_step (consistent : Consistent t) : Consistent (step server t label) := by
  rw [consistent_iff] at consistent ⊢
  intro userId roomId
  cases about : label.tells userId roomId with
  | none =>
    rw [rowsOf_step_apart about]
    exact consistent userId roomId
  | some told =>
    cases label with
    | update call =>
      rw [Label.tells, Option.ite_none_right_eq_some] at about
      obtain ⟨⟨rfl, rfl⟩, _⟩ := about
      exact agree_update call (consistent _ _)
    | forget room user =>
      grind [rowsOf_removeRows, Rows.agree_without, Label.tells, step, forget]

theorem read_not_custom (rows : Rows) (name : String) : rows.read ≠ some (.custom name) := by
  rw [Rows.read]
  unfold membershipOf
  split <;> simp

theorem read_step (plain : server.Plain) {told : Option MembershipState} (about : label.tells userId roomId = some told) :
    userMembership userId roomId (step server t label) = told ↔ Fine server t label := by
  cases label with
  | update call =>
    rw [Label.tells, Option.ite_none_right_eq_some] at about
    obtain ⟨⟨rfl, rfl⟩, same⟩ := about
    cases same
    rw [userMembership_eq, step, Fine]
    cases kind : call.membership with
    | join =>
      rw [rowsOf_join call kind]
      simp [Rows.read, Rows.only, membershipOf]
    | invite =>
      grind [Server.Plain.ignored, rowsOf_markCounted, updateMembership, markAsInvited, Rows.read, Rows.only,
        membershipOf]
    | knock =>
      grind [rowsOf_markCounted, updateMembership, markAsKnocked, Rows.read, Rows.only, membershipOf]
    | leave =>
      rw [rowsOf_leave call (Or.inl kind)]
      cases server.forgets call <;> cases onceJoined call.userId call.roomId t <;>
        simp [Rows.read, Rows.only, Rows.without, membershipOf]
    | ban =>
      rw [rowsOf_leave call (Or.inr kind)]
      cases server.forgets call <;> cases onceJoined call.userId call.roomId t <;>
        simp [Rows.read, Rows.only, Rows.without, membershipOf]
    | custom name =>
      rw [iff_false]
      exact read_not_custom _ name
  | forget room user =>
    rw [Label.tells, Option.ite_none_right_eq_some] at about
    obtain ⟨⟨rfl, rfl⟩, same⟩ := about
    cases same
    rw [userMembership_eq, step, Fine, forget, rowsOf_removeRows]
    simp only [Rows.read, Rows.without, rowsOf]
    cases isListed user room .joined t <;> cases isListed user room .knocked t <;>
      cases isListed user room .invited t <;> cases onceJoined user room t <;> simp [membershipOf]

theorem lastUpdate_concat (labels : List Label) : lastUpdate userId roomId (labels ++ [label]) =
      (label.tells userId roomId).getD (lastUpdate userId roomId labels) := by
  grind [lastUpdate]

theorem tells_some (label : Label) : ∃ userId roomId told, label.tells userId roomId = some told := by
  cases label with
  | update call => exact ⟨call.userId, call.roomId, some call.membership, if_pos ⟨rfl, rfl⟩⟩
  | forget roomId userId => exact ⟨userId, roomId, none, if_pos ⟨rfl, rfl⟩⟩

theorem agrees_step (plain : server.Plain) {labels : List Label} (agrees : Agrees t labels) :
    Agrees (step server t label) (labels ++ [label]) ↔ Fine server t label := by
  constructor
  · intro after
    obtain ⟨userId, roomId, told, about⟩ := tells_some label
    have reads := after.membership userId roomId
    grind [lastUpdate_concat, read_step]
  · intro fine
    refine ⟨consistent_step agrees.consistent, ?_⟩
    intro userId roomId
    rw [lastUpdate_concat]
    cases about : label.tells userId roomId with
    | none =>
      rw [Option.getD_none, userMembership_eq, rowsOf_step_apart about, ← userMembership_eq]
      exact agrees.membership userId roomId
    | some told =>
      grind [read_step]

end Steps

section Runs

variable {server : Server}

theorem after_concat (labels : List Label) (label : Label) :
    server.after (labels ++ [label]) = step server (server.after labels) label := by
  grind [Server.after]

theorem consistent_after (labels : List Label) : Consistent (server.after labels) := by
  induction labels using List.reverseRecOn with
  | nil => exact ⟨nofun, fun _ _ _ => rfl⟩
  | append_singleton labels label ih =>
    rw [after_concat]
    exact consistent_step ih

/-- The tables agree with each other in every run. They agree with the history at every point of a run exactly
    where each of its calls is a fine one. -/
theorem membership_cache_agrees_iff (server : Server) (plain : server.Plain) (labels : List Label) :
    Consistent (server.after labels) ∧ ((∀ done, done <+: labels → Agrees (server.after done) done) ↔
        ∀ done label, done ++ [label] <+: labels → Fine server (server.after done) label) := by
  refine ⟨consistent_after labels, holds_throughout_iff ⟨consistent_after [], fun _ _ => rfl⟩ ?_ labels⟩
  grind [after_concat, agrees_step]

end Runs

namespace Sample

def server : Server := ⟨fun _ => true, fun _ _ => false, false⟩

theorem plain : server.Plain := ⟨fun _ _ => rfl, rfl⟩

def alice : UserId := ⟨"@alice:here"⟩
def room : RoomId := ⟨"!room:here"⟩

def update (membership : MembershipState) : Label :=
  .update ⟨room, alice, membership, alice, none, false, false⟩

/-- A ban is read as a leave, and after a forget a user who was in the room reads as banned. -/
theorem ban_reads_as_leave : userMembership alice room (server.after [update .join, update .ban]) = some .leave ∧
      lastUpdate alice room [update .join, update .ban] = some .ban ∧
      userMembership alice room (server.after [update .join, update .leave, .forget room alice]) = some .ban ∧
      lastUpdate alice room [update .join, update .leave, .forget room alice] = none := by
  decide +kernel

def visit : List Label := [update .invite, update .join, update .leave]

theorem fine_visit (t : Tables) : ∀ label ∈ visit, Fine server t label := by
  intro label mem
  simp only [visit, List.mem_cons, List.not_mem_nil, or_false] at mem
  rcases mem with rfl | rfl | rfl
  · trivial
  · trivial
  · rfl

theorem membership_cache_agrees_visit : server.Plain ∧ ∀ done, done <+: visit → Agrees (server.after done) done := by
  refine ⟨plain, (membership_cache_agrees_iff server plain visit).2.mpr ?_⟩
  intro done label begins
  exact fine_visit _ label (begins.subset (by simp))

end Sample

end Phantom.StateCache
