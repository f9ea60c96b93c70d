import Phantom.Lib.Task
import Phantom.Matrix.Event

namespace Phantom.Accounts

open Phantom.Lib Phantom.Matrix

structure DeviceId where
  asStr : String
deriving DecidableEq

structure UserDeviceId where
  userId : UserId
  deviceId : DeviceId
deriving DecidableEq

/-- A token is told apart by the random string in it, here a number, and by whether it starts with
    `refresh_`. -/
inductive Token where
  | plain (secret : ℕ)
  | refresh (secret : ℕ)
deriving DecidableEq

def Token.isRefreshToken : Token → Bool
  | .refresh _ => true
  | .plain _ => false

structure AuthConfig where
  accessTokenTtl : ℕ
  refreshTokenTtl : ℕ
  refreshTokenIdleOnly : Bool
  refreshTokenHardLogout : Bool
  refreshTokenReuseGrace : ℕ
  refreshTokenReuseRevoke : Bool

inductive Error where
  | forbidden (message : String)
  | unknownToken (softLogout : Bool) (message : String)
  | database (message : String)
  | arithmetic (duration : ℕ)
deriving DecidableEq

structure SpentRefresh where
  userdeviceid : UserDeviceId
  successor : Token
  spentAt : ℕ
deriving DecidableEq

/-- The token tables of the users service, its locks with the jobs that hold them, the clock in seconds
    since the epoch, and the random tokens drawn so far. -/
structure Users where
  tokenUserdeviceid : Token → Option (UserDeviceId × Option ℕ)
  userdeviceidToken : UserDeviceId → Option Token
  userdeviceidRefresh : UserDeviceId → Option Token
  spentrefreshUserdeviceid : Token → Option SpentRefresh
  userdeviceidSpentrefresh : UserDeviceId → Option Token
  userdeviceidMetadata : UserDeviceId → Bool
  accessTokenLocks : UserId → Option ℕ
  now : ℕ
  drawn : List Token

def Users.init : Users where
  tokenUserdeviceid := fun _ => none
  userdeviceidToken := fun _ => none
  userdeviceidRefresh := fun _ => none
  spentrefreshUserdeviceid := fun _ => none
  userdeviceidSpentrefresh := fun _ => none
  userdeviceidMetadata := fun _ => false
  accessTokenLocks := fun _ => none
  now := 0
  drawn := []

/-- What the requests do to the tables. Where a token is stored for a refresh request, the event names
    the refresh token that was presented. A removal is remembered with the tokens drawn before it. -/
inductive Event where
  | drew (token : Token)
  | acquired (user : UserId)
  | checked (device : UserDeviceId) (presented : Option Token) (accessToken : Token)
  | rotating (device : UserDeviceId) (presented : Option Token)
  | clearedRefresh (device : UserDeviceId)
  | storedRefresh (device : UserDeviceId) (presented : Option Token) (token : Token)
  | clearedAccess (device : UserDeviceId)
  | storedAccess (device : UserDeviceId) (presented : Option Token) (token : Token)
  | removing (device : UserDeviceId) (drawn : List Token)
deriving DecidableEq

structure Draw where
  secret : ℕ
  deviceId : DeviceId

abbrev Call := Task Draw Event Users

def remove {κ β : Type} [DecidableEq κ] (table : κ → Option β) : Option κ → κ → Option β
  | some key => Function.update table key none
  | none => table

namespace Users

variable (users : Users)

def lock (user : UserId) (job : ℕ) : Users :=
  { users with accessTokenLocks := Function.update users.accessTokenLocks user (some job) }

def unlock (user : UserId) : Users :=
  { users with accessTokenLocks := Function.update users.accessTokenLocks user none }

def draw (token : Token) : Users := { users with drawn := token :: users.drawn }

variable (device : UserDeviceId)

/-- The transaction of `remove_access_token`. -/
def dropAccess (token : Option Token) : Users :=
  { users with
    tokenUserdeviceid := remove users.tokenUserdeviceid token
    userdeviceidToken := Function.update users.userdeviceidToken device none }

/-- The transaction of `set_access_token`. -/
def putAccess (previous : Option Token) (token : Token)
    (expiresAt : Option ℕ) : Users :=
  { users with
    tokenUserdeviceid := Function.update (remove users.tokenUserdeviceid previous) token (some (device, expiresAt))
    userdeviceidToken := Function.update users.userdeviceidToken device (some token) }

/-- The transaction of `remove_refresh_token`. -/
def dropRefresh (refreshToken spent : Option Token) : Users :=
  { users with
    tokenUserdeviceid := remove users.tokenUserdeviceid refreshToken
    spentrefreshUserdeviceid := remove users.spentrefreshUserdeviceid spent
    userdeviceidRefresh := Function.update users.userdeviceidRefresh device none
    userdeviceidSpentrefresh := Function.update users.userdeviceidSpentrefresh device none }

/-- The transaction of `set_refresh_token`. -/
def putRefresh (token : Token) (expiresAt : Option ℕ)
    (spent : Option Token) (spentAt : ℕ) : Users :=
  let stored := { users with
    tokenUserdeviceid := Function.update users.tokenUserdeviceid token (some (device, expiresAt))
    userdeviceidRefresh := Function.update users.userdeviceidRefresh device (some token) }
  match spent with
  | some spent => { stored with
      spentrefreshUserdeviceid := Function.update users.spentrefreshUserdeviceid spent (some ⟨device, token, spentAt⟩)
      userdeviceidSpentrefresh := Function.update users.userdeviceidSpentrefresh device (some spent) }
  | none => stored

def setMetadata (known : Bool) : Users :=
  { users with userdeviceidMetadata := Function.update users.userdeviceidMetadata device known }

end Users

/-- `SystemTime` counts seconds in an `i64`. -/
def timepointFromNow (now duration : ℕ) : Except Error ℕ :=
  if now + duration < 2 ^ 63 then .ok (now + duration) else .error (.arithmetic duration)

def timepointHasPassed (now timepoint : ℕ) : Bool := decide (timepoint ≤ now)

def acquire (user : UserId) : Call Unit :=
  .step (fun job _ users =>
      if users.accessTokenLocks user = none then some ([.acquired user], users.lock user job) else none)
    (fun _ _ => .done ())

def locked {α : Type} (user : UserId) (call : Call α) : Call α := do
  acquire user
  let result ← call
  Task.write [] (·.unlock user)
  return result

/-- `rand::string` never gives a string that it gave before. -/
def generate (token : ℕ → Token) : Call Token :=
  .step (fun _ drawn users =>
      if token drawn.secret ∈ users.drawn then none
      else some ([.drew (token drawn.secret)], users.draw (token drawn.secret)))
    (fun drawn _ => .done (token drawn.secret))

def generateRefreshToken : Call Token := generate .refresh

variable (config : AuthConfig)

def generateAccessToken (expires : Bool) : Call (Token × Option ℕ) := do
  let accessToken ← generate .plain
  return (accessToken, if expires then some config.accessTokenTtl else none)

def findFromToken (token : Token) : Call (Option (UserDeviceId × Option ℕ)) :=
  Task.read (·.tokenUserdeviceid token)

variable (device : UserDeviceId)

def findRefreshTokenExpiresAt : Call (Option ℕ) := do
  let token ← Task.read (·.userdeviceidRefresh device)
  match token with
  | some token => do
    let row ← findFromToken token
    return row.bind Prod.snd
  | none => return none

def removeAccessToken : Call Unit :=
  locked device.userId do
    let token ← Task.read (·.userdeviceidToken device)
    Task.write [.clearedAccess device] (·.dropAccess device token)

def removeRefreshToken : Call Unit := do
  let refreshToken ← Task.read (·.userdeviceidRefresh device)
  let spent ← Task.read (·.userdeviceidSpentrefresh device)
  Task.write [.clearedRefresh device] (·.dropRefresh device refreshToken spent)

def removeTokens : Call Unit := do
  removeAccessToken device
  removeRefreshToken device

def priorExpiresAt : Call (Option ℕ) :=
  if config.refreshTokenTtl ≠ 0 ∧ config.refreshTokenIdleOnly = false then
    findRefreshTokenExpiresAt device
  else
    return none

def refreshExpiresAt (prior : Option ℕ) (now : ℕ) : Except Error (Option ℕ) :=
  if config.refreshTokenTtl = 0 then .ok none
  else match prior with
    | some prior => .ok (some prior)
    | none => some <$> timepointFromNow now config.refreshTokenTtl

variable (presented : Option Token)

def setRefreshToken
    (refreshToken : Token) : Call (Except Error Unit) := do
  let prior ← priorExpiresAt config device
  let spent ← Task.observe (fun _ => [.rotating device presented]) (·.userdeviceidRefresh device)
  removeRefreshToken device
  let now ← Task.read (·.now)
  match refreshExpiresAt config prior now with
  | .error error => return .error error
  | .ok expiresAt => do
    let spentAt ← Task.read (·.now)
    Task.write [.storedRefresh device presented refreshToken]
      (·.putRefresh device refreshToken expiresAt spent spentAt)
    return .ok ()

def accessExpiresAt (expiresIn : Option ℕ) (now : ℕ) : Except Error (Option ℕ) :=
  match expiresIn with
  | some expiresIn => some <$> timepointFromNow now expiresIn
  | none => .ok none

variable (accessToken : Token)

def replaceAccessToken
    (expiresIn : Option ℕ) : Call (Except Error Unit) := do
  let now ← Task.read (·.now)
  match accessExpiresAt expiresIn now with
  | .error error => return .error error
  | .ok expiresAt => do
    let previous ← Task.read (·.userdeviceidToken device)
    Task.write [.storedAccess device presented accessToken] (·.putAccess device previous accessToken expiresAt)
    return .ok ()

def replaceRefreshToken :
    Option Token → Call (Except Error Unit)
  | some refreshToken => setRefreshToken config device presented refreshToken
  | none => return .ok ()

def replaceTokens
    (expiresIn : Option ℕ) (refreshToken : Option Token) :
    Call (Except Error Unit) := do
  let replaced ← replaceRefreshToken config device presented refreshToken
  match replaced with
  | .error error => return .error error
  | .ok () => replaceAccessToken device presented accessToken expiresIn

def setAccessToken
    (expiresIn : Option ℕ) (refreshToken : Option Token) :
    Call (Except Error Unit) :=
  locked device.userId do
    let known ← Task.observe
      (fun users => if users.userdeviceidMetadata device then [.checked device presented accessToken]
        else [])
      (·.userdeviceidMetadata device)
    if known then
      replaceTokens config device presented accessToken expiresIn refreshToken
    else
      return .error (.database "User does not exist or device has no metadata.")

inductive RefreshToken where
  | current (device : UserDeviceId) (expiresAt : Option ℕ)
  | replayed (device : UserDeviceId) (current : Token) (grace : Bool)
  | unknown
deriving DecidableEq

def withinGrace (now spentAt : ℕ) : Bool :=
  config.refreshTokenReuseGrace ≠ 0 && decide (now - spentAt ≤ config.refreshTokenReuseGrace)

def classifySpent (presented : Token) : Call RefreshToken := do
  let row ← Task.read (·.spentrefreshUserdeviceid presented)
  match row with
  | none => return .unknown
  | some row => do
    let current ← Task.read (·.userdeviceidRefresh row.userdeviceid)
    let now ← Task.read (·.now)
    return .replayed row.userdeviceid row.successor
      (withinGrace config now row.spentAt && decide (current = some row.successor))

def classifyRefreshToken (presented : Token) : Call RefreshToken :=
  if presented.isRefreshToken then do
    let found ← findFromToken presented
    match found with
    | some (device, expiresAt) => do
      let current ← Task.read (·.userdeviceidRefresh device)
      if current = some presented then return .current device expiresAt
      else classifySpent config presented
    | none => classifySpent config presented
  else
    return .unknown

end Phantom.Accounts
