import Phantom.Alias.Service
import Phantom.Lib.History

namespace Phantom.Alias

open Phantom.Lib Phantom.Matrix Function

/-- Each room lists each alias once if the alias stands for the room, and not at all otherwise. -/
def Agree (server : Server) (tables : Tables) : Prop :=
  ∀ roomId roomAlias, (localAliasesForRoom roomId tables).count roomAlias =
    if resolveLocalAlias server roomAlias tables = .ok roomId then 1 else 0

def Refused (server : Server) (roomAlias : RoomAliasId) (userId : UserId) : Prop :=
  aliasIsLocal server roomAlias = false ∨ roomAlias = server.adminAlias ∧ userId ≠ server.serverUser

/-- A call that keeps the tables in agreement: an alias is set only while it stands for no room, and only a
    local alias is removed. -/
def Fine (server : Server) (tables : Tables) : Label → Prop
  | .set roomAlias _ userId => Refused server roomAlias userId ∨ tables.aliasRoomid roomAlias.localpart = none
  | .remove roomAlias => aliasIsLocal server roomAlias = true ∨ tables.aliasRoomid roomAlias.localpart = none

section Rows

variable {server : Server} {t : Tables} {roomAlias other : RoomAliasId} {roomId room : RoomId} {userId : UserId}

theorem resolve_eq_ok :
    resolveLocalAlias server roomAlias t = .ok roomId ↔
      aliasIsLocal server roomAlias = true ∧ t.aliasRoomid roomAlias.localpart = some roomId := by
  rw [resolveLocalAlias, checkAliasLocal]
  cases aliasIsLocal server roomAlias with
  | false => simp
  | true => cases t.aliasRoomid roomAlias.localpart <;> simp

theorem localpart_ne (isLocal : aliasIsLocal server roomAlias = true) (otherLocal : aliasIsLocal server other = true)
    (ne : other ≠ roomAlias) : other.localpart ≠ roomAlias.localpart := by
  have server := of_decide_eq_true isLocal
  have otherServer := of_decide_eq_true otherLocal
  cases other
  cases roomAlias
  grind

theorem setAliasBy_refused (refused : Refused server roomAlias userId) :
    (setAliasBy server roomAlias roomId userId t).2 = t := by
  cases isLocal : aliasIsLocal server roomAlias with
  | false =>
    simp only [setAliasBy, checkAliasLocal, isLocal]
    rfl
  | true =>
    have admin := refused.resolve_left (by rw [isLocal]; exact Bool.true_eq_false.mp)
    simp only [setAliasBy, checkAliasLocal, isLocal, if_pos admin]
    rfl

theorem setAliasBy_accepted (accepted : ¬ Refused server roomAlias userId) :
    (setAliasBy server roomAlias roomId userId t).2 =
      { count := t.count + 1
        aliasUserid := update t.aliasUserid roomAlias.localpart (some userId)
        aliasRoomid := update t.aliasRoomid roomAlias.localpart (some roomId)
        aliasidAlias := t.aliasidAlias ++ [((roomId, t.count + 1), roomAlias)] } := by
  obtain ⟨isLocal, notAdmin⟩ := not_or.mp accepted
  simp only [setAliasBy, checkAliasLocal, isLocal, if_neg notAdmin]
  rfl

theorem removeAlias_missing (missing : t.aliasRoomid roomAlias.localpart = none) :
    (removeAlias roomAlias t).2 = t := by
  simp only [removeAlias, Bind.bind, Action.get, missing]
  rfl

theorem removeAlias_found (found : t.aliasRoomid roomAlias.localpart = some roomId) :
    (removeAlias roomAlias t).2 =
      { t with
        aliasUserid := update t.aliasUserid roomAlias.localpart none
        aliasRoomid := update t.aliasRoomid roomAlias.localpart none
        aliasidAlias := t.aliasidAlias.filter (fun row => ¬ (row.1.1 = roomId ∧ row.2 = roomAlias)) } := by
  simp only [removeAlias, Bind.bind, Action.get, found]
  rfl

theorem count_set (accepted : ¬ Refused server roomAlias userId) :
    (localAliasesForRoom room (setAliasBy server roomAlias roomId userId t).2).count other =
      (localAliasesForRoom room t).count other + if roomId = room ∧ roomAlias = other then 1 else 0 := by
  grind [setAliasBy_accepted, localAliasesForRoom]

theorem count_eq_countP :
    (localAliasesForRoom room t).count other =
      t.aliasidAlias.countP (fun row => row.2 == other && decide (row.1.1 = room)) := by
  rw [localAliasesForRoom, List.count, List.countP_map, List.countP_filter]
  rfl

theorem count_remove (found : t.aliasRoomid roomAlias.localpart = some roomId) :
    (localAliasesForRoom room (removeAlias roomAlias t).2).count other =
      if room = roomId ∧ other = roomAlias then 0 else (localAliasesForRoom room t).count other := by
  rw [count_eq_countP, count_eq_countP, removeAlias_found found]
  rw [List.countP_filter]
  split
  · next same =>
    rw [List.countP_eq_zero]
    intro row _
    simp only [same.1, same.2, Bool.and_eq_true, beq_iff_eq, decide_eq_true_eq]
    intro listed
    exact listed.2 ⟨listed.1.2, listed.1.1⟩
  · next ne =>
    apply List.countP_congr
    intro row _
    simp only [Bool.and_eq_true, beq_iff_eq, decide_eq_true_eq]
    constructor
    · exact fun listed => listed.1
    · intro listed
      refine ⟨listed, ?_⟩
      intro removed
      exact ne ⟨listed.2.symm.trans removed.1, listed.1.symm.trans removed.2⟩

end Rows

section Steps

variable {server : Server} {t : Tables} {roomAlias : RoomAliasId} {roomId : RoomId} {userId : UserId}

theorem agree_set (agree : Agree server t) (accepted : ¬ Refused server roomAlias userId) :
    Agree server (setAliasBy server roomAlias roomId userId t).2 ↔
      t.aliasRoomid roomAlias.localpart = none := by
  have isLocal : aliasIsLocal server roomAlias = true := by
    rw [← Bool.not_eq_false]
    exact fun foreign => accepted (Or.inl foreign)
  have resolves : ∀ room other, resolveLocalAlias server other (setAliasBy server roomAlias roomId userId t).2 =
      .ok room ↔ if other = roomAlias then roomId = room else resolveLocalAlias server other t = .ok room := by
    intro room other
    rw [resolve_eq_ok, resolve_eq_ok, setAliasBy_accepted accepted]
    grind [localpart_ne]
  constructor
  · intro after
    cases found : t.aliasRoomid roomAlias.localpart with
    | none => rfl
    | some room =>
      have before := agree room roomAlias
      rw [if_pos (resolve_eq_ok.mpr ⟨isLocal, found⟩)] at before
      have now := after room roomAlias
      grind [count_set]
  · intro missing room other
    rw [count_set accepted, agree room other]
    grind [resolve_eq_ok]

theorem agree_remove (agree : Agree server t) (found : t.aliasRoomid roomAlias.localpart = some roomId) :
    Agree server (removeAlias roomAlias t).2 ↔ aliasIsLocal server roomAlias = true := by
  constructor
  · intro after
    by_contra foreign
    -- the local alias with the same local part is listed and no longer stands for the room
    let twin : RoomAliasId := ⟨roomAlias.localpart, server.serverName⟩
    have twinLocal : aliasIsLocal server twin = true := decide_eq_true rfl
    have ne : ¬ (roomId = roomId ∧ twin = roomAlias) := by
      grind
    have before := agree roomId twin
    have now := after roomId twin
    rw [count_remove found, if_neg ne, before, removeAlias_found found] at now
    grind [resolve_eq_ok]
  · intro isLocal room other
    rw [count_remove found, agree room other]
    by_cases same : other = roomAlias
    · subst same
      have gone : resolveLocalAlias server other (removeAlias other t).2 ≠ .ok room := by
        rw [Ne, resolve_eq_ok, removeAlias_found found]
        grind
      grind [resolve_eq_ok]
    · have kept : resolveLocalAlias server other (removeAlias roomAlias t).2 = .ok room ↔
          resolveLocalAlias server other t = .ok room := by
        rw [resolve_eq_ok, resolve_eq_ok, removeAlias_found found]
        grind [localpart_ne]
      grind

theorem agree_step (agree : Agree server t) (label : Label) :
    Agree server (step server t label) ↔ Fine server t label := by
  cases label with
  | set roomAlias roomId userId =>
    grind [setAliasBy_refused, agree_set, step, Fine]
  | remove roomAlias =>
    rw [step, Fine]
    cases found : t.aliasRoomid roomAlias.localpart with
    | none =>
      grind [removeAlias_missing]
    | some roomId =>
      grind [agree_remove]

end Steps

/-- The tables agree at every point of a run exactly where each of its calls is a fine one. -/
theorem alias_tables_agree_iff (server : Server) (labels : List Label) :
    (∀ done, done <+: labels → Agree server (server.after done)) ↔
      ∀ done label, done ++ [label] <+: labels → Fine server (server.after done) label := by
  apply holds_throughout_iff
  · intro roomId roomAlias
    have unresolved : resolveLocalAlias server roomAlias (server.after []) ≠ .ok roomId := by
      rw [Ne, resolve_eq_ok]
      exact nofun
    rw [if_neg unresolved]
    rfl
  · grind [agree_step, Server.after]

namespace Sample

def server : Server := ⟨⟨"here"⟩, ⟨"@server:here"⟩, ⟨"admins", ⟨"here"⟩⟩⟩

def lobby : RoomAliasId := ⟨"lobby", ⟨"here"⟩⟩
def old : RoomId := ⟨"!old:here"⟩
def new : RoomId := ⟨"!new:here"⟩
def alice : UserId := ⟨"@alice:here"⟩

/-- After an upgrade the old room still lists the alias that stands for the new room. -/
theorem moved_alias_listed :
    resolveLocalAlias server lobby
      (moveLocalAliases server old new alice (server.after [.set lobby old alice])) = .ok new ∧
      localAliasesForRoom old (moveLocalAliases server old new alice (server.after [.set lobby old alice])) = [lobby] ∧
      ¬ Agree server (server.after [.set lobby old alice, .set lobby new alice]) := by
  refine ⟨rfl, by decide +kernel, ?_⟩
  intro agree
  have listed := agree old lobby
  exact absurd listed (by decide +kernel)

end Sample

end Phantom.Alias
