import Phantom.Accounts.SerialCalls

namespace Phantom.Accounts

open Phantom.Lib Phantom.Matrix Phantom.Lib.Task

/-- The current refresh token of the device has expired, and the one spent before it is out of grace. -/
def Lapsed (config : AuthConfig) (users : Users) (device : UserDeviceId) : Prop :=
  (∀ token, users.userdeviceidRefresh device = some token → ¬ Alive users token) ∧
  ∀ token row, users.userdeviceidSpentrefresh device = some token →
    users.spentrefreshUserdeviceid token = some row → withinGrace config users.now row.spentAt = false

/-- A login on a device that exists finds no refresh token there, or it replaces the one it finds and
    spent tokens have no grace, or it replaces none and those it finds have lapsed. -/
def EndsSession (config : AuthConfig) (users : Users) : Request → Prop
  | .login userId (some deviceId) refreshToken =>
    users.userdeviceidMetadata ⟨userId, deviceId⟩ = true → users.userdeviceidRefresh ⟨userId, deviceId⟩ = none ∨
      if refreshToken then config.refreshTokenReuseGrace = 0 else Lapsed config users ⟨userId, deviceId⟩
  | _ => True

/-- The devices that a request may store a refresh token for. -/
def Request.Target (users : Users) (device : UserDeviceId) : Request → Prop
  | .refresh presented => users.userdeviceidRefresh device = some presented
  | .login userId (some deviceId) true => device = ⟨userId, deviceId⟩
  | .login _ none true => users.userdeviceidRefresh device = none
  | _ => False

abbrev Request.purpose (config : AuthConfig) (users : Users) (request : Request) : Purpose :=
  ⟨users.drawn, fun device => request.Target users device, EndsSession config users request⟩

def SerialStep (config : AuthConfig) (tables : Tables)
    (served : Request × Option (Except Error TokenResponse)) (after : Tables) : Prop :=
  EndsSession config tables.store served.1 ∧ Ends 0 (serve config served.1) tables served.2 after

structure Fallow (config : AuthConfig) (users : Users) (token : Token) : Prop where
  current : ∀ device, users.userdeviceidRefresh device = some token → ¬ Alive users token
  spent : ∀ row, users.spentrefreshUserdeviceid token = some row → withinGrace config users.now row.spentAt = false

theorem withinGrace_mono {cfg : AuthConfig} {now later spentAt : ℕ} (passed : now ≤ later)
    (out : withinGrace cfg now spentAt = false) : withinGrace cfg later spentAt = false := by
  grind [withinGrace]

theorem withinGrace_zero {cfg : AuthConfig} (none : cfg.refreshTokenReuseGrace = 0)
    (now spentAt : ℕ) : withinGrace cfg now spentAt = false := by
  simp [withinGrace, none]

section Requests

variable {config cfg : AuthConfig} {tables t after : Tables} {aim : Purpose} {job : ℕ}
variable {token : Token} {result : Option (Except Error TokenResponse)}
variable {dev : UserDeviceId} {presented : Token} {userId : UserId}

theorem Tame.fallow (tame : Tame cfg aim t after) (isOld : token ∈ aim.old) (ends : aim.ends)
    (fallow : Fallow cfg t.store token) : Fallow cfg after.store token where
  current dev points alive := by
    obtain ⟨before, row⟩ := tame.old_current isOld points
    apply fallow.current dev before
    intro entry found
    rw [← row] at found
    have living := alive entry found
    by_contra expired
    rw [hasExpired_mono tame.now (by simpa using expired)] at living
    cases living
  spent row found := by
    rcases tame.spent isOld found with before | ⟨current, alive⟩
    · exact withinGrace_mono tame.now (fallow.spent row before)
    · rcases alive ends with none | alive
      · exact withinGrace_zero none _ _
      · exact absurd alive (fallow.current _ current)

theorem generateAccessToken_serial {expires : Bool} (calm : Calm t) :
    (generateAccessToken cfg expires).serial job (fun result after =>
      result.1.isRefreshToken = false ∧
      result.2 = (if expires then some cfg.accessTokenTtl else none) ∧ Kept t after) t := by
  apply serial_seq (generate_serial calm)
  rintro _ middle ⟨⟨secret, rfl⟩, -, kept, -⟩
  exact ⟨rfl, rfl, kept⟩

theorem rotate_serial (aim : Purpose) (calm : Calm t) (isOld : aim.old = t.store.drawn) (target : aim.Target dev)
    (current : t.store.userdeviceidRefresh dev = some presented) (alive : Alive t.store presented) :
    (rotate cfg dev presented).serial job (fun result after => Replaced cfg aim t after ∧
      ∀ response token, result = .ok response → response.refreshToken = some token →
        after.store.userdeviceidRefresh dev = some token) t := by
  apply serial_seq (generate_serial calm)
  rintro _ first ⟨⟨secret, rfl⟩, fresh, drew, unused⟩
  apply serial_seq (generateAccessToken_serial (drew.calm calm))
  rintro ⟨accessToken, expiresIn⟩ second ⟨plain, -, drewAgain⟩
  have kept := drew.trans drewAgain
  apply serial_seq (setAccessToken_rotating (kept.calm calm) plain (drewAgain.unused (unused rfl))
    (isOld ▸ fresh) target ?_)
  · rintro stored last ⟨replaced, -, issued⟩
    cases stored with
    | error error => exact ⟨kept.replaced calm replaced, nofun⟩
    | ok =>
      refine ⟨kept.replaced calm replaced, ?_⟩
      rintro _ _ ⟨rfl⟩ ⟨rfl⟩
      exact issued rfl
  · intro _ spent points
    rw [kept.current, current] at points
    cases points
    exact Or.inr ((kept.alive (calm.current current).1).mpr alive)

theorem reissue_serial {successor : Token} (calm : Calm t) :
    (reissue cfg dev presented successor).serial job (fun result after => Kept t after ∧
      ∀ response, result = .ok response → response.refreshToken = some successor) t := by
  apply serial_seq (generateAccessToken_serial calm)
  rintro ⟨accessToken, expiresIn⟩ middle ⟨plain, -, drew⟩
  apply serial_seq (setAccessToken_serial (drew.calm calm) plain)
  intro stored last kept
  cases stored with
  | error error => exact ⟨drew.trans kept, nofun⟩
  | ok =>
    refine ⟨drew.trans kept, ?_⟩
    rintro _ ⟨rfl⟩
    rfl

theorem expire_serial (aim : Purpose) (calm : Calm t) :
    (expire cfg dev).serial job (fun result after => (∃ error, result = .error error) ∧
      Replaced cfg aim t after) t := by
  unfold expire logoutExpired
  split
  · apply serial_seq (removeDevice_serial calm)
    exact fun _ last replaced => ⟨⟨_, rfl⟩, replaced⟩
  · apply serial_bind
    apply removeRefreshToken_serial
    exact ⟨⟨_, rfl⟩, calm.cleared (by simp), Tame.cleared calm⟩

theorem reuse_serial (aim : Purpose) (calm : Calm t) :
    (reuse cfg dev).serial job (fun result after => (∃ error, result = .error error) ∧
      Replaced cfg aim t after) t := by
  unfold reuse revokeReused
  split
  · apply serial_seq (removeDevice_serial calm)
    exact fun _ last replaced => ⟨⟨_, rfl⟩, replaced⟩
  · exact ⟨⟨_, rfl⟩, calm, Tame.refl⟩

def Classified (config : AuthConfig) (tables : Tables) (presented : Token) : RefreshToken → Prop
  | .current device expiresAt => tables.store.userdeviceidRefresh device = some presented ∧
    tables.store.tokenUserdeviceid presented = some (device, expiresAt)
  | .replayed device current true => tables.store.userdeviceidRefresh device = some current ∧
    ∃ row, tables.store.spentrefreshUserdeviceid presented = some row ∧
      withinGrace config tables.store.now row.spentAt = true
  | _ => True

theorem classifySpent_serial : (classifySpent cfg presented).serial job
      (fun classified after => after = t ∧ Classified cfg t presented classified) t := by
  apply serial_read
  split
  · exact ⟨rfl, trivial⟩
  · rename_i row found
    apply serial_read
    apply serial_read
    refine ⟨rfl, ?_⟩
    cases within : withinGrace cfg t.store.now row.spentAt with
    | false => exact trivial
    | true =>
      cases current : decide (t.store.userdeviceidRefresh row.userdeviceid = some row.successor) with
      | false => exact trivial
      | true => exact ⟨of_decide_eq_true current, row, found, within⟩

theorem classifyRefreshToken_serial : (classifyRefreshToken cfg presented).serial job
      (fun classified after => after = t ∧ Classified cfg t presented classified) t := by
  unfold classifyRefreshToken
  split
  · apply serial_read
    split
    · rename_i dev expiresAt found
      apply serial_read
      split
      · rename_i current
        exact ⟨rfl, current, found⟩
      · exact classifySpent_serial
    · exact classifySpent_serial
  · exact ⟨rfl, trivial⟩

theorem refreshTokenRoute_serial (calm : Calm t) : (refreshTokenRoute cfg presented).serial job (fun result after =>
      Replaced cfg ((Request.refresh presented).purpose cfg t.store) t after ∧
      (Fallow cfg t.store presented → ∃ error, result = .error error) ∧
      ∀ response token, result = .ok response → response.refreshToken = some token →
        ∃ dev, after.store.userdeviceidRefresh dev = some token) t := by
  let aim := (Request.refresh presented).purpose cfg t.store
  unfold refreshTokenRoute
  split
  · apply serial_seq classifyRefreshToken_serial
    rintro classified middle ⟨same, classes⟩
    rw [same]
    cases classified with
    | current dev expiresAt =>
      obtain ⟨current, row⟩ := classes
      apply serial_read
      split
      · refine serial_mono (expire_serial aim calm) ?_
        rintro _ last ⟨⟨error, rfl⟩, replaced⟩
        exact ⟨replaced, fun _ => ⟨error, rfl⟩, nofun⟩
      · next living =>
        have alive : Alive t.store presented := by
          grind [Alive]
        refine serial_mono (rotate_serial aim calm rfl current current alive) ?_
        exact fun result last rotated => ⟨rotated.1, fun fallow => absurd alive (fallow.current dev current),
          fun response token ok issued => ⟨dev, rotated.2 response token ok issued⟩⟩
    | replayed dev successor grace =>
      cases grace with
      | true =>
        obtain ⟨current, row, found, within⟩ := classes
        refine serial_mono (reissue_serial calm) ?_
        rintro result last ⟨kept, reissued⟩
        refine ⟨kept.replaces calm, fun fallow => ?_, fun response token ok issued => ⟨dev, ?_⟩⟩
        · cases within.symm.trans (fallow.spent row found)
        · rw [kept.current, current, ← reissued response ok, issued]
      | false =>
        refine serial_mono (reuse_serial aim calm) ?_
        rintro _ last ⟨⟨error, rfl⟩, replaced⟩
        exact ⟨replaced, fun _ => ⟨error, rfl⟩, nofun⟩
    | unknown => exact ⟨⟨calm, Tame.refl⟩, fun _ => ⟨_, rfl⟩, nofun⟩
  · exact ⟨⟨calm, Tame.refl⟩, fun _ => ⟨_, rfl⟩, nofun⟩

variable {expiresIn : Option ℕ}

theorem loginRefreshToken_serial (calm : Calm t) :
    (loginRefreshToken expiresIn).serial job (fun refresh after => refresh.isSome = expiresIn.isSome ∧
      (∀ token ∈ refresh, token ∉ t.store.drawn ∧ Unused after token) ∧ Kept t after) t := by
  cases expiresIn with
  | none => exact ⟨rfl, nofun, Kept.refl calm⟩
  | some expiresIn =>
    apply serial_seq (generate_serial calm)
    rintro _ middle ⟨⟨secret, rfl⟩, fresh, kept, unused⟩
    refine ⟨rfl, ?_, kept⟩
    rintro _ ⟨rfl⟩
    exact ⟨fresh, unused rfl⟩

variable {deviceId : Option DeviceId}

theorem loginDevice_serial : (loginDevice userId deviceId).serial job (fun result after => after = t ∧
      (∀ named ∈ deviceId, result.1 = named) ∧ result.2 = t.store.userdeviceidMetadata ⟨userId, result.1⟩ ∧
      (deviceId = none → result.2 = false)) t := by
  cases deviceId with
  | some deviceId => exact serial_read ⟨rfl, by rintro _ ⟨rfl⟩; rfl, rfl, nofun⟩
  | none =>
    intro drawn events store taken
    dsimp only at taken
    split at taken
    · cases taken
    · rename_i unknown
      cases taken
      rw [World.after_nil]
      exact ⟨rfl, nofun, by simpa using unknown, fun _ => rfl⟩

variable {accessToken : Token}

theorem ensureDevice_serial {existing : Bool} (calm : Calm t) (plain : accessToken.isRefreshToken = false) :
    (ensureDevice cfg dev accessToken existing).serial job (fun result after =>
      (existing = true → result = .ok ()) ∧ Kept t after) t := by
  cases existing with
  | true => exact ⟨fun _ => rfl, Kept.refl calm⟩
  | false =>
    apply serial_write
    have created : Kept t (t.after job [] (t.store.setMetadata dev true)) := by
      refine Kept.aside calm (by simp) rfl (fun _ mem => mem) ?_
      intro device' known
      change Function.update t.store.userdeviceidMetadata dev true device' = true
      grind
    refine serial_mono (setAccessToken_serial (created.calm calm) plain) ?_
    exact fun _ last kept => ⟨nofun, created.trans kept⟩

theorem setLogin_serial (aim : Purpose) {refresh : Option Token} (calm : Calm t)
    (plain : accessToken.isRefreshToken = false) (unused : ∀ token ∈ refresh, token ∉ aim.old ∧ Unused t token)
    (target : refresh.isSome = true → aim.Target dev)
    (alive : aim.ends → ∀ token ∈ refresh, ∀ spent, t.store.userdeviceidRefresh dev = some spent →
    cfg.refreshTokenReuseGrace = 0 ∨ Alive t.store spent) :
    (setAccessToken cfg dev none accessToken expiresIn refresh).serial job
      (fun result after => Replaced cfg aim t after ∧
        (refresh.isSome = true → t.store.userdeviceidMetadata dev = true →
          ∀ spent ∈ aim.old, after.store.userdeviceidRefresh dev ≠ some spent) ∧
        (result = .ok () → ∀ token ∈ refresh, after.store.userdeviceidRefresh dev = some token)) t := by
  cases refresh with
  | none =>
    refine serial_mono (setAccessToken_serial calm plain) ?_
    exact fun _ last kept => ⟨kept.replaces calm, nofun, nofun⟩
  | some token =>
    obtain ⟨new, isUnused⟩ := unused token rfl
    refine serial_mono (setAccessToken_rotating calm plain isUnused new (target rfl) fun ends => alive ends token rfl) ?_
    rintro result last ⟨replaced, gone, issued⟩
    refine ⟨replaced, fun _ => gone, ?_⟩
    rintro ok _ ⟨rfl⟩
    exact issued ok

variable {refreshToken : Bool}

theorem loginRoute_serial (calm : Calm t) :
    (loginRoute cfg userId deviceId refreshToken).serial job (fun result after =>
      Replaced cfg ((Request.login userId deviceId refreshToken).purpose cfg t.store) t after ∧
      (∀ named ∈ deviceId, refreshToken = true → t.store.userdeviceidMetadata ⟨userId, named⟩ = true →
        ∀ spent ∈ t.store.drawn, after.store.userdeviceidRefresh ⟨userId, named⟩ ≠ some spent) ∧
      ∀ response token, result = .ok response → response.refreshToken = some token →
        token ∉ t.store.drawn ∧ ∃ dev, after.store.userdeviceidRefresh dev = some token) t := by
  apply serial_seq (generateAccessToken_serial calm)
  rintro ⟨accessToken, expiresIn⟩ first ⟨plain, expires, drew⟩
  apply serial_seq (loginRefreshToken_serial (drew.calm calm))
  rintro refresh second ⟨asked, unused, drewAgain⟩
  have requested : refresh.isSome = refreshToken := by
    grind
  have kept := drew.trans drewAgain
  apply serial_seq loginDevice_serial
  rintro ⟨id, existing⟩ third ⟨same, named, known, random⟩
  rw [same]
  have existed : t.store.userdeviceidMetadata ⟨userId, id⟩ = true → existing = true :=
    fun before => known.trans (kept.known _ before)
  have held : ∀ spent, t.store.userdeviceidRefresh ⟨userId, id⟩ = some spent → deviceId = some id := by
    intro spent points
    have before := existed (calm.current points).2.2.1
    cases deviceId with
    | none => cases before.symm.trans (random rfl)
    | some deviceId => exact congrArg some (named deviceId rfl).symm
  apply serial_seq (ensureDevice_serial (kept.calm calm) plain)
  rintro created fourth ⟨ensured, keptAgain⟩
  have whole := kept.trans keptAgain
  cases created with
  | error error => exact ⟨whole.replaces calm, by grind, nofun⟩
  | ok =>
    have fresh : ∀ token ∈ refresh, token ∉ t.store.drawn ∧ Unused fourth token := by
      grind [Kept.drawn, Kept.unused]
    have target : refresh.isSome = true → (Request.login userId deviceId refreshToken).Target t.store ⟨userId, id⟩ := by
      intro some
      rw [requested] at some
      subst some
      cases deviceId with
      | none => exact Option.eq_none_iff_forall_ne_some.mpr fun spent points => by cases held spent points
      | some deviceId => exact congrArg _ (named deviceId rfl)
    have replaceable : EndsSession cfg t.store (.login userId deviceId refreshToken) → ∀ token ∈ refresh, ∀ spent,
        fourth.store.userdeviceidRefresh ⟨userId, id⟩ = some spent →
        cfg.refreshTokenReuseGrace = 0 ∨ Alive fourth.store spent := by
      intro ends token isRefresh spent points
      rw [whole.current] at points
      have wanted : refreshToken = true := by
        rw [← requested, isRefresh]
        rfl
      rw [held spent points] at ends
      rcases ends (calm.current points).2.2.1 with none | replaced
      · rw [none] at points
        cases points
      · grind
    apply serial_seq (setLogin_serial ((Request.login userId deviceId refreshToken).purpose cfg t.store)
      (whole.calm calm) plain fresh target replaceable)
    rintro stored last ⟨replaced, gone, issued⟩
    have done := whole.replaced calm replaced
    have ended : ∀ named ∈ deviceId, refreshToken = true →
        t.store.userdeviceidMetadata ⟨userId, named⟩ = true → ∀ spent ∈ t.store.drawn,
          last.store.userdeviceidRefresh ⟨userId, named⟩ ≠ some spent := by
      grind [Kept.known]
    cases stored with
    | error error => exact ⟨done, ended, nofun⟩
    | ok =>
      refine ⟨done, ended, ?_⟩
      rintro _ token ⟨rfl⟩ answered
      exact ⟨(fresh token answered).1, _, issued rfl token answered⟩

/-- What is known of a request that was served: of refresh tokens that yield nothing none is answered
    with tokens, and a login that replaces the refresh token leaves no earlier one current. -/
structure Answered (config : AuthConfig) (tables : Tables) (request : Request)
    (result : Option (Except Error TokenResponse)) (after : Tables) : Prop extends
    Replaced config (request.purpose config tables.store) tables after where
  refused : ∀ presented, request = .refresh presented → Fallow config tables.store presented →
    ∃ error, result = some (.error error)
  ended : ∀ userId deviceId, request = .login userId (some deviceId) true →
    tables.store.userdeviceidMetadata ⟨userId, deviceId⟩ = true → ∀ spent ∈ tables.store.drawn,
      after.store.userdeviceidRefresh ⟨userId, deviceId⟩ ≠ some spent
  issued : ∀ response token, result = some (.ok response) → response.refreshToken = some token →
    (∀ userId deviceId refreshToken, request = .login userId deviceId refreshToken → token ∉ tables.store.drawn) ∧
    ∃ device, after.store.userdeviceidRefresh device = some token

theorem removal_serial (cfg : AuthConfig) (aim : Purpose) {call : Call Unit} (calm : Calm t)
    (spec : ∀ t : Tables, Calm t → call.serial job (fun _ after => Replaced cfg aim t after) t) :
    (removal dev call).serial job (fun result after => result = none ∧ Replaced cfg aim t after) t := by
  apply serial_observe
  have noted := Kept.silent job [.removing dev t.store.drawn] calm (by simp)
  apply serial_seq (spec _ (noted.calm calm))
  exact fun _ last replaced => ⟨rfl, noted.replaced calm replaced⟩

theorem serve_serial (req : Request) (calm : Calm t) : (serve cfg req).serial job (Answered cfg t req) t := by
  cases req with
  | refresh presented =>
    apply serial_seq (refreshTokenRoute_serial calm)
    rintro response last ⟨replaced, refused, issued⟩
    refine ⟨replaced, ?_, nofun, ?_⟩
    · grind
    · rintro _ token ⟨rfl⟩ answered
      exact ⟨nofun, issued _ token rfl answered⟩
  | login userId deviceId refreshToken =>
    apply serial_seq (loginRoute_serial calm)
    rintro response last ⟨replaced, ended, issued⟩
    refine ⟨replaced, nofun, ?_, ?_⟩
    · rintro _ named ⟨rfl⟩
      exact ended named rfl rfl
    · rintro _ token ⟨rfl⟩ answered
      obtain ⟨fresh, current⟩ := issued _ token rfl answered
      exact ⟨fun _ _ _ _ => fresh, current⟩
  | removeTokens dev =>
    refine serial_mono (removal_serial cfg ((Request.removeTokens dev).purpose cfg t.store) calm fun _ calm =>
      serial_mono (removeTokens_serial calm) fun _ _ removed => removed.1) ?_
    rintro _ last ⟨rfl, replaced⟩
    exact ⟨replaced, nofun, nofun, nofun⟩
  | removeDevice dev =>
    refine serial_mono (removal_serial cfg ((Request.removeDevice dev).purpose cfg t.store) calm
      (fun _ calm => removeDevice_serial calm)) ?_
    rintro _ last ⟨rfl, replaced⟩
    exact ⟨replaced, nofun, nofun, nofun⟩
  | elapse seconds =>
    apply serial_write
    refine ⟨⟨⟨calm.unmarked, calm.current, calm.spent, ?_⟩, ?_⟩, nofun, nofun, nofun⟩
    · intro dev token stored
      exact calm.owner (stored_after (by simp) stored)
    · exact ⟨Nat.le_add_right _ _, fun _ mem => mem, fun points => Or.inl ⟨points, rfl⟩, fun _ found => Or.inl found⟩

theorem SerialStep.answered {req : Request}
    (step : SerialStep cfg t (req, result) after) (calm : Calm t) : Answered cfg t req result after :=
  (serve_serial req calm).ends step.2

theorem Calm.init : Calm ⟨Users.init, []⟩ := ⟨nofun, nofun, nofun, nofun⟩

theorem fallow_of_none (calm : Calm t) (stored : Stored t dev token) (none : t.store.userdeviceidRefresh dev = none) :
    Fallow cfg t.store token := by
  obtain ⟨-, current, spent⟩ := calm.owner stored
  refine ⟨?_, ?_⟩
  · grind
  · intro row found
    have successor := (calm.spent found).2.1
    rw [spent row found, none] at successor
    cases successor

theorem fallow_of_lapsed (calm : Calm t) (stored : Stored t dev token) (lapsed : Lapsed cfg t.store dev) :
    Fallow cfg t.store token := by
  obtain ⟨-, current, spent⟩ := calm.owner stored
  refine ⟨?_, ?_⟩
  · intro device' points
    obtain rfl := current device' points
    exact lapsed.1 token points
  · intro row found
    have points := (calm.spent found).1
    rw [spent row found] at points
    exact lapsed.2 token row points found

theorem fallow_of_login {deviceId : DeviceId} (calm : Calm t)
    (step : SerialStep cfg t (.login userId (some deviceId) refreshToken, result) after)
    (existing : t.store.userdeviceidMetadata ⟨userId, deviceId⟩ = true)
    (stored : Stored t ⟨userId, deviceId⟩ token) : Fallow cfg after.store token := by
  have answered := step.answered calm
  have drawn := (calm.owner stored).1
  have kept : Fallow cfg t.store token → Fallow cfg after.store token := answered.tame.fallow drawn step.1
  have ends : _ ∨ _ := step.1 existing
  rcases ends with none | ends
  · exact kept (fallow_of_none calm stored none)
  · cases refreshToken with
    | true =>
      refine ⟨?_, fun row _ => withinGrace_zero ends _ _⟩
      intro dev points
      have before := (answered.tame.old_current drawn points).1
      obtain rfl := (calm.owner stored).2.1 dev before
      grind [Answered.ended]
    | false => exact kept (fallow_of_lapsed calm stored ends)

end Requests

/-- In every serial run of logins, refreshes and removals in which each login on an existing device ends
    the session it finds there, a refresh token that was stored for the device before such a login is
    answered with an error whenever it is presented afterwards. -/
theorem relogin_ends_session (config : AuthConfig)
    {earlier later : List (Request × Option (Except Error TokenResponse))} {before after last final : Tables}
    (run : Run (SerialStep config) ⟨Users.init, []⟩ earlier before)
    {userId : UserId} {deviceId : DeviceId} {refreshToken : Bool} {answer : Option (Except Error TokenResponse)}
    (login : SerialStep config before (.login userId (some deviceId) refreshToken, answer) after)
    (existing : before.store.userdeviceidMetadata ⟨userId, deviceId⟩ = true)
    (more : Run (SerialStep config) after later last) {token : Token}
    (issued : Stored before ⟨userId, deviceId⟩ token) {result : Option (Except Error TokenResponse)}
    (presented : SerialStep config last (.refresh token, result) final) : ∃ error, result = some (.error error) := by
  have calm : Calm before := run.invariant Calm (fun _ _ _ calm step => (step.answered calm).calm) Calm.init
  have drawn := (calm.owner issued).1
  have ended : Calm after ∧ token ∈ after.store.drawn ∧ Fallow config after.store token :=
    ⟨(login.answered calm).calm, (login.answered calm).tame.drawn token drawn,
      fallow_of_login calm login existing issued⟩
  obtain ⟨calmly, -, fallow⟩ := more.invariant
    (fun tables => Calm tables ∧ token ∈ tables.store.drawn ∧ Fallow config tables.store token)
    (fun tables served next held step => by
      have answered := step.answered held.1
      exact ⟨answered.calm, answered.tame.drawn token held.2.1, answered.tame.fallow held.2.1 step.1 held.2.2⟩) ended
  exact (presented.answered calmly).refused token rfl fallow

namespace Sample

def login (refreshToken : Bool) : Request := .login device.userId (some device.deviceId) refreshToken

def draw (secret : ℕ) : Draw := ⟨secret, device.deviceId⟩

/-- The refresh token of the first login is answered after a second login that asks for none, and after
    one that asks for one when spent tokens have grace. -/
theorem earlier_token_answered :
    (∃ last, Run (fun tables served after => Ends 0 (serve config served.1) tables served.2 after) ⟨Users.init, []⟩
      [(login true, some (.ok ⟨.plain 1, some (.refresh 1), some 3600⟩)),
        (login false, some (.ok ⟨.plain 2, none, none⟩)),
        (.refresh (.refresh 1), some (.ok ⟨.plain 3, some (.refresh 3), some 3600⟩))] last) ∧
    ∃ last, Run (fun tables served after =>
        Ends 0 (serve { config with refreshTokenReuseGrace := 30 } served.1) tables served.2 after)
      ⟨Users.init, []⟩
      [(login true, some (.ok ⟨.plain 1, some (.refresh 1), some 3600⟩)),
        (login true, some (.ok ⟨.plain 2, some (.refresh 2), some 3600⟩)),
        (.refresh (.refresh 1), some (.ok ⟨.plain 3, some (.refresh 2), some 3600⟩))] last := by
  refine ⟨⟨_, run_of_performAll (show performAll (serve config) _ [(login true, draw 1), (login false, draw 2),
        (.refresh (.refresh 1), draw 3)] = some (_, _) from rfl)⟩, ⟨_, run_of_performAll
      (show performAll (serve { config with refreshTokenReuseGrace := 30 }) _ [(login true, draw 1),
        (login true, draw 2), (.refresh (.refresh 1), draw 3)] = some (_, _) from rfl)⟩⟩

def first : Option (Except Error TokenResponse) × Tables :=
  (perform 0 (draw 1) (serve config (login true)) ⟨Users.init, []⟩).get rfl

def second : Option (Except Error TokenResponse) × Tables :=
  (perform 0 (draw 2) (serve config (login true)) first.2).get rfl

def third : Option (Except Error TokenResponse) × Tables :=
  (perform 0 (draw 3) (serve config (.refresh (.refresh 1))) second.2).get rfl

theorem relogin_ends_session_refused : Run (SerialStep config) ⟨Users.init, []⟩ [(login true, first.1)] first.2 ∧
      SerialStep config first.2 (login true, second.1) second.2 ∧ Stored first.2 device (.refresh 1) ∧
      SerialStep config second.2 (.refresh (.refresh 1), third.1) third.2 ∧
      ∃ error, third.1 = some (.error error) := by
  have firstEnds : Ends 0 (serve config (login true)) ⟨Users.init, []⟩ first.1 first.2 := by
    exact ends_of_isSome _
  have secondEnds : Ends 0 (serve config (login true)) first.2 second.1 second.2 := by
    exact ends_of_isSome _
  have thirdEnds : Ends 0 (serve config (.refresh (.refresh 1))) second.2 third.1 third.2 := by
    exact ends_of_isSome _
  have run : Run (SerialStep config) ⟨Users.init, []⟩ [(login true, first.1)] first.2 :=
    .cons ⟨nofun, firstEnds⟩ (.nil _)
  have again : SerialStep config first.2 (login true, second.1) second.2 := ⟨fun _ => Or.inr rfl, secondEnds⟩
  have issued : Stored first.2 device (.refresh 1) := ⟨0, none, by decide +kernel⟩
  have presented : SerialStep config second.2 (.refresh (.refresh 1), third.1) third.2 := ⟨trivial, thirdEnds⟩
  exact ⟨run, again, issued, presented, relogin_ends_session config run again rfl (.nil _) issued presented⟩

end Sample

end Phantom.Accounts
