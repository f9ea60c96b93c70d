import Phantom.Accounts.SerialSteps

namespace Phantom.Accounts

open Phantom.Lib Phantom.Matrix Phantom.Lib.Task Function

variable {config cfg : AuthConfig} {aim : Purpose} {tables t after middle : Tables} {job : ℕ} {α : Type}
variable {dev : UserDeviceId} {presented : Option Token} {token : Token} {expiresIn : Option ℕ}

theorem locked_serial {user : UserId} {call : Call α} {Returned : α → Tables → Prop}
    (spec : call.serial job (fun result middle =>
        Returned result (middle.after job [] (middle.store.unlock user)))
      (t.after job [.acquired user] (t.store.lock user job))) :
    (locked user call).serial job Returned t := by
  intro drawn events store taken
  dsimp only at taken
  split at taken
  · cases taken
    apply serial_seq spec
    intro result middle returned
    apply serial_write
    exact returned
  · cases taken

theorem removeRefreshToken_serial {Returned : Unit → Tables → Prop}
    (returned : Returned () (t.after job [.clearedRefresh dev] (t.store.cleared dev))) :
    (removeRefreshToken dev).serial job Returned t := serial_read (serial_read (serial_write_last returned))

theorem priorExpiresAt_serial :
    (priorExpiresAt cfg dev).serial job (fun prior after => prior = t.store.priorExpiresAt cfg dev ∧ after = t) t := by
  unfold priorExpiresAt Users.priorExpiresAt
  split
  · apply serial_read
    split
    · next points =>
      rw [points]
      exact serial_read ⟨rfl, rfl⟩
    · next none =>
      rw [none]
      exact ⟨rfl, rfl⟩
  · exact ⟨rfl, rfl⟩

structure Replaced (config : AuthConfig) (aim : Purpose) (tables after : Tables) : Prop where
  calm : Calm after
  tame : Tame config aim tables after

theorem Kept.replaces (kept : Kept t after) (calm : Calm t) : Replaced cfg aim t after :=
  ⟨kept.calm calm, kept.before calm Tame.refl⟩

theorem Kept.replaced (kept : Kept t middle) (calm : Calm t)
    (replaced : Replaced cfg aim middle after) : Replaced cfg aim t after :=
  ⟨replaced.calm, kept.before calm replaced.tame⟩

theorem Replaced.kept (replaced : Replaced cfg aim t middle) (kept : Kept middle after) : Replaced cfg aim t after :=
  ⟨kept.calm replaced.calm, replaced.tame.kept kept replaced.calm⟩

theorem Kept.silent (job : ℕ) (events : List Event) (calm : Calm t)
    (others : ∀ dev presented token, .storedRefresh dev presented token ∉ events) :
    Kept t (t.after job events t.store) := Kept.aside calm others rfl (fun _ mem => mem) fun _ known => known

theorem setRefreshToken_serial (calm : Calm t) (unused : Unused t token) (new : token ∉ aim.old)
    (known : t.store.userdeviceidMetadata dev = true) (target : aim.Target dev)
    (alive : aim.ends → ∀ spent, t.store.userdeviceidRefresh dev = some spent →
      cfg.refreshTokenReuseGrace = 0 ∨ Alive t.store spent) :
    (setRefreshToken cfg dev presented token).serial job (fun result after => Replaced cfg aim t after ∧
      (∀ spent ∈ aim.old, after.store.userdeviceidRefresh dev ≠ some spent) ∧
      (result = .ok () → after.store.userdeviceidRefresh dev = some token)) t := by
  apply serial_seq priorExpiresAt_serial
  rintro _ middle ⟨rfl, same⟩
  rw [same]
  apply serial_observe
  apply serial_bind
  apply removeRefreshToken_serial
  apply serial_read
  have read : Kept t (t.after job [.rotating dev presented] t.store) := Kept.silent job _ calm (by simp)
  have kept := read.trans (Kept.silent job [.clearedRefresh dev] (read.calm calm) (by simp))
  split
  · refine ⟨read.replaced calm ⟨(read.calm calm).cleared (by simp), Tame.cleared (read.calm calm)⟩, ?_, nofun⟩
    intro spent _ points
    exact (cleared_refresh points).1 rfl
  · next expiresAt expires =>
    apply serial_read
    apply serial_write
    refine ⟨kept.replaced calm ⟨(kept.calm calm).rotated (kept.unused unused) known, ?_⟩, ?_, fun _ => ?_⟩
    · exact Tame.rotated (kept.calm calm) (kept.unused unused) new target expires alive
    · intro spent isOld points
      rcases rotated_refresh points with ⟨-, rfl⟩ | ⟨ne, -⟩
      · exact new isOld
      · exact ne rfl
    · exact (congrFun (Users.putRefresh_userdeviceidRefresh ..) dev).trans (update_self ..)

theorem replaceAccessToken_serial (calm : Calm t) (plain : token.isRefreshToken = false) :
    (replaceAccessToken dev presented token expiresIn).serial job (fun _ after => Kept t after) t := by
  apply serial_read
  split
  · exact Kept.refl calm
  · exact serial_read (serial_write (Kept.putAccess calm plain))

section

variable (job : ℕ) (user : UserId)

theorem Kept.entered (calm : Calm t) : Kept t (t.after job [.acquired user] (t.store.lock user job)) :=
  Kept.aside calm (by simp) rfl (fun _ mem => mem) fun _ known => known

theorem Kept.left (calm : Calm t) : Kept t (t.after job [] (t.store.unlock user)) :=
  Kept.aside calm (by simp) rfl (fun _ mem => mem) fun _ known => known

theorem Kept.checked (events : List Event) (calm : Calm t)
    (others : ∀ dev presented token, .storedRefresh dev presented token ∉ events) :
    Kept t ((t.after job [.acquired user] (t.store.lock user job)).after job events (t.store.lock user job)) :=
  have entered := Kept.entered job user calm
  entered.trans (Kept.silent job events (entered.calm calm) others)

end

section

variable (calm : Calm t)
include calm

theorem setAccessToken_serial (plain : token.isRefreshToken = false) :
    (setAccessToken cfg dev presented token expiresIn none).serial job (fun _ after => Kept t after) t := by
  apply locked_serial
  apply serial_observe
  split
  · have checked := Kept.checked job dev.userId [.checked dev presented token] calm (by simp)
    have calmly := checked.calm calm
    refine serial_mono (replaceAccessToken_serial calmly plain) ?_
    intro _ after kept
    exact (checked.trans kept).trans (Kept.left _ _ (kept.calm calmly))
  · have checked := Kept.checked job dev.userId [] calm (by simp)
    exact checked.trans (Kept.left _ _ (checked.calm calm))

theorem setAccessToken_rotating {accessToken : Token} (plain : accessToken.isRefreshToken = false)
    (unused : Unused t token) (new : token ∉ aim.old) (target : aim.Target dev)
    (alive : aim.ends → ∀ spent, t.store.userdeviceidRefresh dev = some spent → cfg.refreshTokenReuseGrace = 0 ∨
    Alive t.store spent) :
    (setAccessToken cfg dev presented accessToken expiresIn (some token)).serial job
      (fun result after => Replaced cfg aim t after ∧ (t.store.userdeviceidMetadata dev = true →
          ∀ spent ∈ aim.old, after.store.userdeviceidRefresh dev ≠ some spent) ∧
        (result = .ok () → after.store.userdeviceidRefresh dev = some token)) t := by
  apply locked_serial
  apply serial_observe
  split
  · rename_i known
    have checked := Kept.checked job dev.userId [.checked dev presented accessToken] calm (by simp)
    apply serial_seq (setRefreshToken_serial (checked.calm calm) (checked.unused unused) new known target alive)
    rintro stored middle ⟨rotated, gone, issued⟩
    have replaced := checked.replaced calm rotated
    cases stored with
    | error error => exact ⟨replaced.kept (Kept.left job dev.userId rotated.calm), fun _ => gone, nofun⟩
    | ok =>
      refine serial_mono (replaceAccessToken_serial rotated.calm plain) ?_
      intro _ last kept
      have left := kept.trans (Kept.left job dev.userId (kept.calm rotated.calm))
      refine ⟨replaced.kept left, fun _ => ?_, fun _ => ?_⟩
      · rw [left.current]
        exact gone
      · rw [left.current]
        exact issued rfl
  · rename_i unknown
    have checked := Kept.checked job dev.userId [] calm (by simp)
    exact ⟨(checked.trans (Kept.left job dev.userId (checked.calm calm))).replaces calm, fun known =>
      absurd known unknown, nofun⟩

theorem removeAccessToken_serial : (removeAccessToken dev).serial job (fun _ after => Kept t after) t := by
  apply locked_serial
  apply serial_read
  apply serial_write_last
  have entered := Kept.entered job dev.userId calm
  have dropped := entered.trans (Kept.dropAccess job dev (entered.calm calm))
  exact dropped.trans (Kept.left job dev.userId (dropped.calm calm))

theorem removeTokens_serial : (removeTokens dev).serial job (fun _ after => Replaced cfg aim t after ∧
      after.store.userdeviceidRefresh dev = none) t := by
  apply serial_seq (removeAccessToken_serial calm)
  intro _ middle kept
  apply removeRefreshToken_serial
  have calmly := kept.calm calm
  exact ⟨kept.replaced calm ⟨calmly.cleared (by simp), Tame.cleared calmly⟩, update_self ..⟩

theorem removeDevice_serial : (removeDevice dev).serial job (fun _ after => Replaced cfg aim t after) t := by
  have tokens : (removeTokens dev).serial job (fun _ after => Replaced cfg aim t after ∧
      after.store.userdeviceidRefresh dev = none) t := removeTokens_serial calm
  apply serial_seq tokens
  rintro _ middle ⟨removed, gone⟩
  apply serial_write_last
  refine ⟨⟨removed.calm.unmarked, ?_, removed.calm.spent, ?_⟩, ?_⟩
  · intro device' token points
    obtain ⟨marked, drawn, known, row⟩ := removed.calm.current points
    have ne : device' ≠ dev := by
      rintro rfl
      change middle.store.userdeviceidRefresh device' = some token at points
      rw [gone] at points
      cases points
    exact ⟨marked, drawn, (update_of_ne ne _ _).trans known, row⟩
  · intro device' token stored
    exact removed.calm.owner (stored_after (by simp) stored)
  · exact ⟨removed.tame.now, removed.tame.drawn, removed.tame.current, removed.tame.spent⟩

end

theorem Kept.drew (job : ℕ) (token : Token) (calm : Calm t) :
    Kept t (t.after job [.drew token] (t.store.draw token)) :=
  Kept.aside calm (by simp) rfl (fun _ mem => List.mem_cons_of_mem _ mem) fun _ known => known

theorem generate_serial {token : ℕ → Token} (calm : Calm t) :
    (generate token).serial job (fun drawn after => (∃ secret, drawn = token secret) ∧
      drawn ∉ t.store.drawn ∧ Kept t after ∧ (drawn.isRefreshToken = true → Unused after drawn)) t := by
  intro drawn events store taken
  dsimp only at taken
  split at taken
  · cases taken
  · rename_i fresh
    cases taken
    have kept := Kept.drew job (token drawn.secret) calm
    refine ⟨⟨drawn.secret, rfl⟩, fresh, kept, fun marked => ⟨marked, List.mem_cons_self, ?_, ?_, ?_⟩⟩
    · intro dev points
      exact fresh (calm.current points).2.1
    · cases found : t.store.spentrefreshUserdeviceid (token drawn.secret) with
      | none => exact found
      | some row => exact absurd (calm.spent found).2.2 fresh
    · intro dev stored
      exact fresh (calm.owner (stored_after (by simp) stored)).1

end Phantom.Accounts
