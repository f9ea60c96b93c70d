import Phantom.Accounts.Relogin

namespace Phantom.Accounts

open Phantom.Lib Phantom.Matrix Phantom.Lib.Task

/-- The token tables with, for each refresh token, the time of the login that it descends from. -/
structure Lifetimes where
  tables : Tables
  login : Token → ℕ

/-- The tokens that a request draws descend from the login that it is, or from the login of the token it presents. -/
def Lifetimes.descend (lives : Lifetimes) (request : Request) (token : Token) : ℕ :=
  if token ∈ lives.tables.store.drawn then lives.login token
  else match request with
    | .refresh presented => lives.login presented
    | _ => lives.tables.store.now

def LifetimeStep (config : AuthConfig) (lives : Lifetimes) (served : Request × Option (Except Error TokenResponse))
    (after : Lifetimes) : Prop :=
  Ends 0 (serve config served.1) lives.tables served.2 after.tables ∧ after.login = lives.descend served.1

/-- In absolute mode a login finds no refresh token on its device, or one with the deadline it would itself give. -/
def FreshLogin (config : AuthConfig) (users : Users) : Request → Prop
  | .login userId (some deviceId) true => config.refreshTokenIdleOnly = true ∨
    ∀ token row, users.userdeviceidRefresh ⟨userId, deviceId⟩ = some token → users.tokenUserdeviceid token = some row →
      row.2 = some (users.now + config.refreshTokenTtl)
  | _ => True

def FreshStep (config : AuthConfig) (lives : Lifetimes) (served : Request × Option (Except Error TokenResponse))
    (after : Lifetimes) : Prop :=
  FreshLogin config lives.tables.store served.1 ∧ LifetimeStep config lives served after

def Expires (users : Users) (token : Token) (deadline : ℕ) : Prop :=
  ∃ device, users.tokenUserdeviceid token = some (device, some deadline)

/-- What is expected of a refresh token that a request is answered with. -/
def LastsFromLogin (config : AuthConfig) (lives after : Lifetimes) (token : Token) : Request → Prop
  | .login .. => Expires after.tables.store token (lives.tables.store.now + config.refreshTokenTtl)
  | _ => config.refreshTokenIdleOnly = false → Expires after.tables.store token
    (after.login token + config.refreshTokenTtl)

/-- Every refresh token that is current has, in absolute mode, the deadline of the login it descends from. -/
structure Steady (config : AuthConfig) (lives : Lifetimes) : Prop where
  calm : Calm lives.tables
  deadline : config.refreshTokenIdleOnly = false → ∀ device token,
    lives.tables.store.userdeviceidRefresh device = some token →
      lives.tables.store.tokenUserdeviceid token = some (device, some (lives.login token + config.refreshTokenTtl))

section Steps

variable {config : AuthConfig} {lives after : Lifetimes} {request : Request}
    {result : Option (Except Error TokenResponse)}
variable {device : UserDeviceId} {token : Token} {expiresAt : Option ℕ} {users : Users}

theorem LifetimeStep.answered (step : LifetimeStep config lives (request, result) after) (calm : Calm lives.tables) :
    Answered config lives.tables request result after.tables := (serve_serial request calm).ends step.1

theorem refreshExpiresAt_ok {prior : Option ℕ} {now : ℕ} (positive : 0 < config.refreshTokenTtl)
    (expires : refreshExpiresAt config prior now = .ok expiresAt) :
    expiresAt = some (prior.getD (now + config.refreshTokenTtl)) := by
  unfold refreshExpiresAt timepointFromNow at expires
  rw [if_neg (by omega)] at expires
  cases prior with
  | some prior =>
    cases expires
    rfl
  | none =>
    dsimp only at expires
    split at expires
    · cases expires
      rfl
    · cases expires

theorem prior_none (unheld : users.userdeviceidRefresh device = none) : users.priorExpiresAt config device = none := by
  unfold Users.priorExpiresAt
  rw [unheld]
  split <;> rfl

section

variable (steady : Steady config lives) (positive : 0 < config.refreshTokenTtl)
include steady positive

theorem Steady.prior (absolute : config.refreshTokenIdleOnly = false)
    (held : lives.tables.store.userdeviceidRefresh device = some token) :
    lives.tables.store.priorExpiresAt config device = some (lives.login token + config.refreshTokenTtl) := by
  unfold Users.priorExpiresAt
  rw [if_pos ⟨by omega, absolute⟩, held, Option.bind_some, steady.deadline absolute device token held]
  rfl

theorem prior_login_iff {userId : UserId} {deviceId : Option DeviceId} {asked : Bool}
    (target : (Request.login userId deviceId asked).Target lives.tables.store device) :
    (lives.tables.store.priorExpiresAt config device).getD (lives.tables.store.now + config.refreshTokenTtl) =
        lives.tables.store.now + config.refreshTokenTtl ↔
      FreshLogin config lives.tables.store (.login userId deviceId asked) := by
  cases asked with
  | false => cases deviceId <;> exact target.elim
  | true =>
    cases deviceId with
    | none =>
      rw [prior_none target]
      exact iff_of_true rfl trivial
    | some deviceId =>
      obtain rfl : device = ⟨userId, deviceId⟩ := target
      cases held : lives.tables.store.userdeviceidRefresh ⟨userId, deviceId⟩ with
      | none =>
        rw [prior_none held]
        refine iff_of_true rfl (Or.inr fun token row points => ?_)
        cases held.symm.trans points
      | some token =>
        simp only [FreshLogin]
        cases idle : config.refreshTokenIdleOnly with
        | true => simp [Users.priorExpiresAt, idle]
        | false =>
          have row := steady.deadline idle _ token held
          rw [steady.prior positive idle held]
          grind

/-- A token that a request stores lasts from the login it descends from, if the request is no login or a fresh one. -/
theorem Steady.step (fresh : FreshLogin config lives.tables.store request)
    (step : LifetimeStep config lives (request, result) after) : Steady config after := by
  have answered := step.answered steady.calm
  refine ⟨answered.calm, fun absolute device token points => ?_⟩
  rw [step.2]
  unfold Lifetimes.descend
  rcases answered.tame.current points with ⟨before, row⟩ | ⟨new, target, expiresAt, expires, row⟩
  · rw [if_pos (steady.calm.current before).2.1, row]
    exact steady.deadline absolute device token before
  · rw [if_neg new, row, refreshExpiresAt_ok positive expires]
    cases request with
    | refresh presented =>
      rw [steady.prior positive absolute target]
      rfl
    | login userId deviceId asked => rw [(prior_login_iff steady positive target).mpr fresh]
    | removeTokens | removeDevice | elapse => exact target.elim

end

end Steps

/-- In every serial run in which each login is fresh, the refresh token that the next request is answered with lasts from
    the login it descends from exactly when that request, too, is no login or a fresh one. -/
theorem refresh_lifetime_iff (config : AuthConfig) (positive : 0 < config.refreshTokenTtl) {login : Token → ℕ}
    {served : List (Request × Option (Except Error TokenResponse))} {lives after : Lifetimes}
    (run : Run (FreshStep config) ⟨⟨Users.init, []⟩, login⟩ served lives)
    {request : Request} {response : TokenResponse} {token : Token}
    (step : LifetimeStep config lives (request, some (.ok response)) after)
    (issued : response.refreshToken = some token) :
    LastsFromLogin config lives after token request ↔ FreshLogin config lives.tables.store request := by
  have steady : Steady config lives := run.invariant (Steady config)
    (fun _ _ _ steady step => steady.step positive step.1 step.2)
    ⟨Calm.init, fun _ _ _ points => by cases points⟩
  have answered := step.answered steady.calm
  obtain ⟨fresh, device, points⟩ := answered.issued response token rfl issued
  have follows : FreshLogin config lives.tables.store request → config.refreshTokenIdleOnly = false →
      Expires after.tables.store token (after.login token + config.refreshTokenTtl) :=
    fun new absolute => ⟨device, (steady.step positive new step).deadline absolute device token points⟩
  cases request with
  | login userId deviceId asked =>
    have new := fresh _ _ _ rfl
    rcases answered.tame.current points with ⟨before, -⟩ | ⟨-, target, expiresAt, expires, row⟩
    · exact absurd (steady.calm.current before).2.1 new
    · rw [← prior_login_iff steady positive target]
      rw [refreshExpiresAt_ok positive expires] at row
      simp only [LastsFromLogin, Expires, row]
      grind
  | refresh presented | removeTokens | removeDevice | elapse => exact iff_of_true (follows trivial) trivial

namespace Sample

def absolute : AuthConfig := { config with refreshTokenTtl := 100, refreshTokenIdleOnly := false }

/-- The refresh token of a second login fifty seconds after the first expires when that of the first does. -/
theorem second_login_keeps_deadline :
    ∃ last, Run (fun tables served after => Ends 0 (serve absolute served.1) tables served.2 after) ⟨Users.init, []⟩
      [(login true, some (.ok ⟨.plain 1, some (.refresh 1), some 3600⟩)), (.elapse 50, none),
        (login true, some (.ok ⟨.plain 3, some (.refresh 3), some 3600⟩))] last ∧
      last.store.now = 50 ∧ last.store.tokenUserdeviceid (.refresh 3) = some (device, some 100) := by
  refine ⟨_, run_of_performAll (show performAll (serve absolute) _ [(login true, draw 1), (.elapse 50, draw 2),
    (login true, draw 3)] = some (_, _) from rfl), rfl, rfl⟩

def twiceLoggedIn : Option (Except Error TokenResponse) × Tables :=
  (perform 0 (draw 1) (serve absolute (login true)) ⟨Users.init, []⟩).get rfl

def refreshed : Option (Except Error TokenResponse) × Tables :=
  (perform 0 (draw 2) (serve absolute (.refresh (.refresh 1))) twiceLoggedIn.2).get rfl

def fresh : Lifetimes := ⟨⟨Users.init, []⟩, fun _ => 0⟩

def old : Lifetimes := ⟨twiceLoggedIn.2, fresh.descend (login true)⟩

theorem refresh_lifetime_rotated : FreshLogin absolute Users.init (login true) ∧
      LastsFromLogin absolute old ⟨refreshed.2, old.descend (.refresh (.refresh 1))⟩ (.refresh 2)
      (.refresh (.refresh 1)) := by
  have new : FreshLogin absolute Users.init (login true) := Or.inr fun _ _ held => by cases held
  have first : Ends 0 (serve absolute (login true)) fresh.tables twiceLoggedIn.1 twiceLoggedIn.2 := by
    exact ends_of_isSome _
  have second : Ends 0 (serve absolute (.refresh (.refresh 1))) twiceLoggedIn.2 refreshed.1 refreshed.2 := by
    exact ends_of_isSome _
  have run : Run (FreshStep absolute) fresh [(login true, twiceLoggedIn.1)] old := .cons ⟨new, first, rfl⟩ (.nil old)
  have step : LifetimeStep absolute old (.refresh (.refresh 1), some (.ok ⟨.plain 2, some (.refresh 2), some 3600⟩))
      ⟨refreshed.2, old.descend (.refresh (.refresh 1))⟩ := ⟨second, rfl⟩
  exact ⟨new, (refresh_lifetime_iff absolute (by decide) run step rfl).mpr trivial⟩

end Sample

end Phantom.Accounts
