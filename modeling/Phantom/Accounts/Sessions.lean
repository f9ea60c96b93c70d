import Phantom.Accounts.Tokens

namespace Phantom.Accounts

open Phantom.Lib Phantom.Matrix

def setToken (config : AuthConfig) (device : UserDeviceId) (token : Token) : Call (Except Error Unit) :=
  setAccessToken config device none token none none

def createDevice (config : AuthConfig) (device : UserDeviceId) (token : Token) :
    Call (Except Error Unit) := do
  Task.write [] (·.setMetadata device true)
  setToken config device token

def removeDevice (device : UserDeviceId) : Call Unit := do
  removeTokens device
  Task.write [] (·.setMetadata device false)

inductive TokenLookup where
  | none
  | invalid
  | expired
  | user (device : UserDeviceId)
  | appservice
deriving DecidableEq

/-- `Token::lookup`, where `appservice` tells the tokens of the registered application services. -/
def lookup (appservice : Token → Bool) (users : Users) : Option Token → TokenLookup
  | .none => .none
  | some token =>
    if appservice token then .appservice
    else if token.isRefreshToken then .invalid
    else match users.tokenUserdeviceid token with
      | some (device, some expiresAt) =>
        if timepointHasPassed users.now expiresAt then .expired else .user device
      | some (device, .none) => .user device
      | .none => .invalid

structure TokenResponse where
  accessToken : Token
  refreshToken : Option Token
  expiresIn : Option ℕ
deriving DecidableEq

def rotate (config : AuthConfig) (device : UserDeviceId) (presented : Token) :
    Call (Except Error TokenResponse) := do
  let refreshToken ← generateRefreshToken
  let (accessToken, expiresIn) ← generateAccessToken config true
  let stored ← setAccessToken config device (some presented) accessToken expiresIn (some refreshToken)
  match stored with
  | .error error => return .error error
  | .ok () => return .ok ⟨accessToken, some refreshToken, expiresIn⟩

def reissue (config : AuthConfig) (device : UserDeviceId) (presented current : Token) :
    Call (Except Error TokenResponse) := do
  let (accessToken, expiresIn) ← generateAccessToken config true
  let stored ← setAccessToken config device (some presented) accessToken expiresIn none
  match stored with
  | .error error => return .error error
  | .ok () => return .ok ⟨accessToken, some current, expiresIn⟩

def hasExpired (now : ℕ) (expiresAt : Option ℕ) : Bool := expiresAt.any (timepointHasPassed now)

section

variable (config : AuthConfig) (device : UserDeviceId)

def logoutExpired : Call Unit :=
  if config.refreshTokenHardLogout then removeDevice device else removeRefreshToken device

def expire : Call (Except Error TokenResponse) := do
  logoutExpired config device
  return .error (.unknownToken (!config.refreshTokenHardLogout) "Refresh token has expired.")

def revokeReused : Call Unit :=
  if config.refreshTokenReuseRevoke then removeDevice device else return ()

def reuse : Call (Except Error TokenResponse) := do
  revokeReused config device
  return .error (.unknownToken (!config.refreshTokenReuseRevoke) "Refresh token has already been used.")

end

def refreshTokenRoute (config : AuthConfig) (presented : Token) :
    Call (Except Error TokenResponse) :=
  if presented.isRefreshToken then do
    let classified ← classifyRefreshToken config presented
    match classified with
    | .current device expiresAt => do
      let now ← Task.read (·.now)
      if hasExpired now expiresAt then expire config device else rotate config device presented
    | .replayed device current true => reissue config device presented current
    | .replayed device _ false => reuse config device
    | .unknown => return .error (.forbidden "Refresh token is unrecognized.")
  else
    return .error (.forbidden "Refresh token is malformed.")

def loginRefreshToken : Option ℕ → Call (Option Token)
  | some _ => do
    let refreshToken ← generateRefreshToken
    return some refreshToken
  | none => return none

def loginDevice (userId : UserId) (deviceId : Option DeviceId) : Call (DeviceId × Bool) :=
  match deviceId with
  | some deviceId => do
    let existing ← Task.read (·.userdeviceidMetadata ⟨userId, deviceId⟩)
    return (deviceId, existing)
  | none =>
    .step (fun _ drawn users =>
        if users.userdeviceidMetadata ⟨userId, drawn.deviceId⟩ then none else some ([], users))
      (fun drawn _ => .done (drawn.deviceId, false))

def ensureDevice (config : AuthConfig) (device : UserDeviceId) (accessToken : Token) :
    Bool → Call (Except Error Unit)
  | true => return .ok ()
  | false => createDevice config device accessToken

def loginRoute (config : AuthConfig) (userId : UserId) (deviceId : Option DeviceId)
    (refreshToken : Bool) : Call (Except Error TokenResponse) := do
  let (accessToken, expiresIn) ← generateAccessToken config refreshToken
  let refresh ← loginRefreshToken expiresIn
  let (deviceId, existing) ← loginDevice userId deviceId
  let created ← ensureDevice config ⟨userId, deviceId⟩ accessToken existing
  match created with
  | .error error => return .error error
  | .ok () => do
    let stored ← setAccessToken config ⟨userId, deviceId⟩ none accessToken expiresIn refresh
    match stored with
    | .error error => return .error error
    | .ok () => return .ok ⟨accessToken, refresh, expiresIn⟩

inductive Request where
  | refresh (presented : Token)
  | login (userId : UserId) (deviceId : Option DeviceId) (refreshToken : Bool)
  | removeTokens (device : UserDeviceId)
  | removeDevice (device : UserDeviceId)
  | elapse (seconds : ℕ)
deriving DecidableEq

abbrev Sessions := Pool Request Draw Event Users (Option (Except Error TokenResponse))

def removal (device : UserDeviceId) (call : Call Unit) : Call (Option (Except Error TokenResponse)) := do
  Task.observe (fun users => [.removing device users.drawn]) fun _ => ()
  call
  return none

def serve (config : AuthConfig) : Request → Call (Option (Except Error TokenResponse))
  | .refresh presented => do
    let response ← refreshTokenRoute config presented
    return some response
  | .login userId deviceId refreshToken => do
    let response ← loginRoute config userId deviceId refreshToken
    return some response
  | .removeTokens device => removal device (removeTokens device)
  | .removeDevice device => removal device (removeDevice device)
  | .elapse seconds => do
    Task.write [] fun users => { users with now := users.now + seconds }
    return none

namespace Sample

def config : AuthConfig where
  accessTokenTtl := 3600
  refreshTokenTtl := 0
  refreshTokenIdleOnly := true
  refreshTokenHardLogout := false
  refreshTokenReuseGrace := 0
  refreshTokenReuseRevoke := true

def device : UserDeviceId := ⟨⟨"@alice:hs"⟩, ⟨"PHONE"⟩⟩

end Sample

end Phantom.Accounts
