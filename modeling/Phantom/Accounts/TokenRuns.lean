import Phantom.Accounts.TokenTables

namespace Phantom.Accounts

open Phantom.Lib Phantom.Matrix Phantom.Lib.Task

section Calls

variable {cfg : AuthConfig} {t : Tables} {job : ℕ} {dev : UserDeviceId} {token : Token} {used : List Token}
variable {users : Users} {user : UserId} {presented refreshToken : Option Token} {expiresIn : Option ℕ}

theorem Consistent.aside {other : Users} (consistent : Consistent users used) (same : other = { users with
      accessTokenLocks := other.accessTokenLocks
      now := other.now
      userdeviceidMetadata := other.userdeviceidMetadata }) : Consistent other used := by
  rw [same]
  exact ⟨consistent.tokens, consistent.spent, consistent.retired, consistent.resolvedUsed, consistent.spentUsed⟩

section

variable (consistent : Consistent t.store used)
include consistent

theorem locked_fits {α : Type} {call : Call α} {after : List Token}
    (spec : ∀ middle : Tables, Consistent middle.store used →
    call.serial job (fun _ last => Consistent last.store after) middle) :
    (locked user call).serial job (fun _ last => Consistent last.store after) t := by
  apply locked_serial
  have entered : Consistent (t.store.lock user job) used := consistent.aside rfl
  apply serial_mono (spec _ entered)
  exact fun _ _ fits => fits.aside rfl

theorem removeAccessToken_fits : (removeAccessToken dev).serial job (fun _ after => Consistent after.store used) t := by
  apply locked_fits consistent
  intro middle consistentMiddle
  exact serial_read (serial_write_last consistentMiddle.dropAccess)

theorem removeRefreshToken_fits : (removeRefreshToken dev).serial job (fun _ after => Consistent after.store used) t :=
  removeRefreshToken_serial consistent.cleared

end

theorem Consistent.outgoing (consistent : Consistent users used) {item : Token}
    (points : users.userdeviceidRefresh dev = some item) :
    (users.cleared dev).resolve item = none ∧ (users.cleared dev).spentBy item = none ∧ item ∈ used := by
  have resolved : users.resolve item = some dev := (consistent.tokens.covers dev item).mpr ⟨.refresh, points⟩
  refine ⟨?_, ?_, consistent.resolvedUsed item dev resolved⟩
  · rw [Users.resolve, Users.cleared, Users.dropRefresh, map_remove, if_pos points]
  · rw [Users.spentBy, Users.cleared, Users.dropRefresh, map_remove]
    split
    · rfl
    · cases spent : users.spentBy item with
      | none => exact spent
      | some other => cases (consistent.retired item other spent).symm.trans resolved

section

variable (consistent : Consistent t.store used)
include consistent

theorem setRefreshToken_fits (new : token ∉ used) :
    (setRefreshToken cfg dev presented token).serial job (fun _ after => Consistent after.store (used ++ [token])) t := by
  apply serial_seq priorExpiresAt_serial
  intro prior middle same
  rw [same.2]
  apply serial_observe
  apply serial_bind
  apply removeRefreshToken_serial
  apply serial_read
  have cleared : Consistent (t.store.cleared dev) used := consistent.cleared
  split
  · exact cleared.mono (List.subset_append_left _ _)
  · apply serial_read
    apply serial_write
    exact cleared.putRefresh new (Function.update_self _ _ _) (Function.update_self _ _ _)
      (fun _ points => consistent.outgoing points)

theorem replaceAccessToken_fits (new : token ∉ used) : (replaceAccessToken dev presented token expiresIn).serial job
      (fun _ after => Consistent after.store (used ++ [token])) t := by
  apply serial_read
  split
  · exact consistent.mono (List.subset_append_left _ _)
  · exact serial_read (serial_write (consistent.putAccess new))

section

variable (nodup : (refreshToken.toList ++ [token]).Nodup) (new : ∀ item ∈ refreshToken.toList ++ [token], item ∉ used)
include nodup new

theorem replaceTokens_fits
    :
    (replaceTokens cfg dev presented token expiresIn refreshToken).serial job
      (fun _ after => Consistent after.store (used ++ (refreshToken.toList ++ [token]))) t := by
  cases refreshToken with
  | none => exact replaceAccessToken_fits consistent (new token (by simp))
  | some refreshToken =>
    apply serial_seq (setRefreshToken_fits consistent (new refreshToken (by simp)))
    intro result middle consistentMiddle
    have grown : used ++ ((some refreshToken).toList ++ [token]) = used ++ [refreshToken] ++ [token] := by simp
    rw [grown]
    cases result with
    | error error => exact consistentMiddle.mono (List.subset_append_left _ _)
    | ok =>
      have unused : token ∉ used ++ [refreshToken] := by
        grind
      exact replaceAccessToken_fits consistentMiddle unused

theorem setAccessToken_fits
    :
    (setAccessToken cfg dev presented token expiresIn refreshToken).serial job
      (fun _ after => Consistent after.store (used ++ (refreshToken.toList ++ [token]))) t := by
  apply locked_fits consistent
  intro middle consistentMiddle
  apply serial_observe
  split
  · have checked : Consistent (middle.after job [.checked dev presented token] middle.store).store used :=
      consistentMiddle
    exact replaceTokens_fits checked nodup new
  · exact consistentMiddle.mono (List.subset_append_left _ _)

end

end

end Calls

inductive TokenCall where
  | setAccessToken (device : UserDeviceId) (accessToken : Token) (expiresIn : Option ℕ) (refreshToken : Option Token)
  | setRefreshToken (device : UserDeviceId) (refreshToken : Token)
  | removeAccessToken (device : UserDeviceId)
  | removeRefreshToken (device : UserDeviceId)
  | removeTokens (device : UserDeviceId)

namespace TokenCall

def tokens : TokenCall → List Token
  | setAccessToken _ accessToken _ refreshToken => refreshToken.toList ++ [accessToken]
  | setRefreshToken _ refreshToken => [refreshToken]
  | removeAccessToken _ | removeRefreshToken _ | removeTokens _ => []

def task (config : AuthConfig) : TokenCall → Call (Except Error Unit)
  | setAccessToken device accessToken expiresIn refreshToken =>
    Accounts.setAccessToken config device none accessToken expiresIn refreshToken
  | setRefreshToken device refreshToken => Accounts.setRefreshToken config device none refreshToken
  | removeAccessToken device => do
    Accounts.removeAccessToken device
    return .ok ()
  | removeRefreshToken device => do
    Accounts.removeRefreshToken device
    return .ok ()
  | removeTokens device => do
    Accounts.removeTokens device
    return .ok ()

end TokenCall

theorem call_fits {cfg : AuthConfig} {t : Tables} {job : ℕ} {used : List Token} (call : TokenCall)
    (consistent : Consistent t.store used) (nodup : call.tokens.Nodup) (new : ∀ token ∈ call.tokens, token ∉ used) :
    (call.task cfg).serial job (fun _ after => Consistent after.store (used ++ call.tokens)) t := by
  cases call with
  | setAccessToken dev accessToken expiresIn refreshToken => exact setAccessToken_fits consistent nodup new
  | setRefreshToken dev refreshToken =>
    exact setRefreshToken_fits consistent (new refreshToken (List.mem_singleton_self _))
  | removeAccessToken dev =>
    rw [TokenCall.tokens, List.append_nil]
    exact serial_seq (removeAccessToken_fits consistent) fun _ _ fits => fits
  | removeRefreshToken dev =>
    rw [TokenCall.tokens, List.append_nil]
    exact serial_seq (removeRefreshToken_fits consistent) fun _ _ fits => fits
  | removeTokens dev =>
    rw [TokenCall.tokens, List.append_nil]
    exact serial_seq (serial_seq (removeAccessToken_fits consistent) fun _ _ => removeRefreshToken_fits)
      (fun _ _ fits => fits)

/-- The tables, and the tokens that calls have brought so far. -/
structure TokenServer where
  tables : Tables
  used : List Token

def TokenServer.start : TokenServer := ⟨⟨.init, []⟩, []⟩

inductive TokenTurn where
  | call (call : TokenCall)
  | clock (now : ℕ)
  | metadata (device : UserDeviceId) (known : Bool)

/-- One call at a time, with tokens that no call has brought before. In between the clock moves, and devices come
    and go. -/
def TokenStep (config : AuthConfig) (server : TokenServer) (turn : TokenTurn) (after : TokenServer) : Prop :=
  match turn with
  | .call call => call.tokens.Nodup ∧ (∀ token ∈ call.tokens, token ∉ server.used) ∧
      after.used = server.used ++ call.tokens ∧
      ∃ job result, Ends job (call.task config) server.tables result after.tables
  | .clock now => after = { server with tables := ⟨{ server.tables.store with now := now }, server.tables.trace⟩ }
  | .metadata device known =>
    after = { server with tables := ⟨server.tables.store.setMetadata device known, server.tables.trace⟩ }

theorem consistent_step {cfg : AuthConfig} {server after : TokenServer} {turn : TokenTurn}
    (consistent : Consistent server.tables.store server.used) (step : TokenStep cfg server turn after) :
    Consistent after.tables.store after.used := by
  cases turn with
  | call call =>
    obtain ⟨nodup, new, used, job, result, ends⟩ := step
    rw [used]
    exact (call_fits call consistent nodup new).ends ends
  | clock now | metadata dev known =>
    rw [show after = _ from step]
    exact consistent.aside rfl

/-- In every serial run with fresh tokens the token tables fit together. -/
theorem token_tables_consistent (config : AuthConfig) {turns : List TokenTurn} {server : TokenServer}
    (run : Run (TokenStep config) .start turns server) :
    (∀ token device, server.tables.store.resolve token = some device ↔
      server.tables.store.userdeviceidToken device = some token ∨ server.tables.store.userdeviceidRefresh device =
      some token) ∧
    (∀ token other device, server.tables.store.spentBy token = some device →
      server.tables.store.spentBy other = some device →
      token = other) ∧ (∀ token device, server.tables.store.userdeviceidSpentrefresh device = some token ↔
      server.tables.store.spentBy token = some device) ∧
    ∀ token device, server.tables.store.spentBy token = some device → server.tables.store.resolve token = none := by
  have consistent := run.invariant (fun server : TokenServer => Consistent server.tables.store server.used)
    (fun _ _ _ held step => consistent_step held step) consistent_init
  refine ⟨?_, ?_, fun token device => consistent.spent device token, consistent.retired⟩
  · intro token device
    rw [consistent.tokens.covers]
    constructor
    · rintro ⟨kind, points⟩
      cases kind with
      | access => exact Or.inl points
      | refresh => exact Or.inr points
    · rintro (points | points)
      · exact ⟨.access, points⟩
      · exact ⟨.refresh, points⟩
  · intro token other device spent spentToo
    have points := (consistent.spent device token).mpr spent
    have pointsToo := (consistent.spent device other).mpr spentToo
    exact Option.some.inj (points.symm.trans pointsToo)

namespace Sample

def tokenNext (server : TokenServer) (turn : TokenTurn) : Option TokenServer :=
  match turn with
  | .call call =>
    if call.tokens.Nodup ∧ ∀ token ∈ call.tokens, token ∉ server.used then
      (perform 0 ⟨0, device.deviceId⟩ (call.task config) server.tables).map
        (fun ended => ⟨ended.2, server.used ++ call.tokens⟩)
    else none
  | .clock now => some { server with tables := ⟨{ server.tables.store with now := now }, server.tables.trace⟩ }
  | .metadata device known =>
    some { server with tables := ⟨server.tables.store.setMetadata device known, server.tables.trace⟩ }

theorem tokenStep_of_next (server : TokenServer) (turn : TokenTurn) (after : TokenServer)
    (next : tokenNext server turn = some after) : TokenStep config server turn after := by
  cases turn with
  | call call =>
    simp only [tokenNext] at next
    split at next
    · rename_i fresh
      obtain ⟨⟨result, last⟩, performed, rfl⟩ := Option.map_eq_some_iff.mp next
      exact ⟨fresh.1, fresh.2, rfl, 0, result, ends_of_perform performed⟩
    · cases next
  | clock now | metadata device known => exact (Option.some.inj next).symm

def rotation : List TokenTurn :=
  [.metadata device true, .call (.setAccessToken device (.plain 1) none (some (.refresh 2))),
    .clock 60, .call (.setAccessToken device (.plain 3) (some 3600) (some (.refresh 4))),
    .call (.removeAccessToken device)]

theorem token_tables_consistent_rotation :
    ∃ server, Run (TokenStep config) .start rotation server ∧ server.tables.store.resolve (.refresh 4) = some device ∧
      server.tables.store.spentBy (.refresh 2) = some device ∧ server.tables.store.resolve (.refresh 2) = none ∧
      server.tables.store.resolve (.plain 3) = none := by
  apply Run.exists_of_foldlM (fun server => server.tables.store.userdeviceidRefresh device = some (.refresh 4) ∧
    server.tables.store.userdeviceidSpentrefresh device = some (.refresh 2) ∧
    server.tables.store.resolve (.plain 3) = none) (by decide +kernel) tokenStep_of_next
  rintro server run ⟨current, spent, revoked⟩
  obtain ⟨resolves, _, inverse, retired⟩ := token_tables_consistent config run
  have spentBy := (inverse (.refresh 2) device).mp spent
  exact ⟨(resolves _ _).mpr (Or.inr current), spentBy, retired _ _ spentBy, revoked⟩

end Sample

end Phantom.Accounts
