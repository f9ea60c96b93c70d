import Phantom.Accounts.Tokens
import Phantom.Lib.Action

namespace Phantom.Auth

open Phantom.Lib Phantom.Matrix Phantom.Accounts

inductive AuthType where
  | password
  | registrationToken
  | dummy
  | terms
  | emailIdentity
  | other (name : String)
deriving DecidableEq

/-- The stages of one `AuthFlow`. -/
abbrev Flow := List AuthType

/-- The parameters, which only a client reads, are left out; of the error only the message is kept,
    since its kind is always `Forbidden`. -/
structure UiaaInfo where
  flows : List Flow
  completed : List AuthType
  session : Option String
  authError : Option String
deriving DecidableEq

def UiaaInfo.new (flows : List Flow) : UiaaInfo := ⟨flows, [], none, none⟩

/-- Both the key `(user, device, session)` of a stored session and the claim on an email proof. -/
structure SessionKey where
  userId : UserId
  deviceId : DeviceId
  session : String
deriving DecidableEq

inductive UserIdentifier where
  | matrix (user : String)
  | other
deriving DecidableEq

structure ThirdpartyIdCredentials where
  sid : String
  clientSecret : String
deriving DecidableEq

inductive AuthData where
  | password (identifier : UserIdentifier) (password : String) (session : Option String)
  | registrationToken (token : String) (session : Option String)
  | dummy (session : Option String)
  | terms (session : Option String)
  | fallbackAcknowledgement (session : String)
  | emailIdentity (creds : ThirdpartyIdCredentials) (session : Option String)
  | unsupported (session : Option String)
deriving DecidableEq

def AuthData.session : AuthData → Option String
  | .password _ _ session => session
  | .registrationToken _ session => session
  | .dummy session => session
  | .terms session => session
  | .fallbackAcknowledgement session => some session
  | .emailIdentity _ session => session
  | .unsupported session => session

def AuthData.isEmailIdentity : AuthData → Bool
  | .emailIdentity _ _ => true
  | _ => false

inductive EmailIdentityMode where
  | validate
  | claim
deriving DecidableEq

inductive UiaaError where
  | forbidden (message : String)
  | unrecognized (message : String)
  | invalidParam (message : String)
  | service (message : String)
deriving DecidableEq

/-- The answers of the other services at the time of one call, none of which is asked twice in it, and
    the session id that `rand::string` gives. -/
structure Services where
  parseWithServerName : String → Option UserId
  checkSessionPassword : UserId → DeviceId → Outcome UiaaError Unit
  verifyPassword : UserId → String → Bool
  tryConsume : String → Bool
  sessionValidated : ThirdpartyIdCredentials → Bool
  claimValidated : ThirdpartyIdCredentials → SessionKey → Outcome UiaaError Bool
  refreshClaim : SessionKey → Outcome UiaaError Bool
  random : String

/-- The stored sessions, and the stages for which a proof has been accepted so far. -/
structure Uiaa where
  userdevicesessionidUiaainfo : SessionKey → Option UiaaInfo
  proven : List (SessionKey × AuthType)

def Uiaa.init : Uiaa := ⟨fun _ => none, []⟩

abbrev UiaaCall := Action Uiaa UiaaError

def updateUiaaSession (key : SessionKey) (uiaainfo : Option UiaaInfo) : UiaaCall Unit :=
  Action.modify fun uiaa =>
    { uiaa with userdevicesessionidUiaainfo := Function.update uiaa.userdevicesessionidUiaainfo key uiaainfo }

def getUiaaSession (key : SessionKey) : UiaaCall UiaaInfo := do
  let uiaa ← Action.get
  Action.lift (Outcome.ofOption (.forbidden "UIAA session does not exist.") (uiaa.userdevicesessionidUiaainfo key))

def prove (key : SessionKey) (stage : AuthType) : UiaaCall Unit :=
  Action.modify fun uiaa => { uiaa with proven := (key, stage) :: uiaa.proven }

def create (user : UserId) (device : DeviceId) (uiaainfo : UiaaInfo) : UiaaCall Unit := do
  let session ← Action.lift (Outcome.expect "session should be set" uiaainfo.session)
  updateUiaaSession ⟨user, device, session⟩ (some uiaainfo)

variable (services : Services)

def authenticateEmailIdentity (key : SessionKey) (creds : ThirdpartyIdCredentials) :
    EmailIdentityMode → Outcome UiaaError Bool
  | .validate => .ok (services.sessionValidated creds)
  | .claim => services.claimValidated creds key

inductive Verdict where
  | completes (stage : AuthType)
  | changesNothing
  | refused (message : String)

/-- The `match auth` of `try_auth_inner`. -/
def authenticate (key : SessionKey) (mode : EmailIdentityMode) :
    AuthData → Outcome UiaaError Verdict
  | .password identifier password _ => do
    let .matrix username := identifier | .fail (.unrecognized "Identifier type not recognized.")
    let userId ← .ofOption (.invalidParam "User ID is invalid.") (services.parseWithServerName username)
    if key.userId ≠ userId then .fail (.forbidden "User ID and access token mismatch.") else
    services.checkSessionPassword userId key.deviceId
    if services.verifyPassword userId password then .ok (.completes .password)
    else .ok (.refused "Invalid username or password.")
  | .registrationToken token _ =>
    if services.tryConsume token then .ok (.completes .registrationToken)
    else .ok (.refused "Invalid registration token.")
  | .dummy _ => .ok (.completes .dummy)
  | .terms _ => .ok (.completes .terms)
  | .fallbackAcknowledgement _ => .ok .changesNothing
  | .emailIdentity creds _ => do
    let validated ← authenticateEmailIdentity services key creds mode
    if validated then .ok (.completes .emailIdentity)
    else .ok (.refused "Email address has not been validated.")
  | .unsupported _ => .ok .changesNothing

/-- The loop `'flows`: whether some flow has all its stages completed. -/
def UiaaInfo.isComplete (uiaainfo : UiaaInfo) : Bool :=
  uiaainfo.flows.any fun flow => flow.all fun stage => uiaainfo.completed.contains stage

def UiaaInfo.withoutEmail (uiaainfo : UiaaInfo) : UiaaInfo :=
  { uiaainfo with
    completed := uiaainfo.completed.filter (· ≠ .emailIdentity)
    authError := some "Email address has not been validated." }

def conclude (key : SessionKey) (mode : EmailIdentityMode) (uiaainfo : UiaaInfo) :
    UiaaCall (Bool × UiaaInfo) :=
  if uiaainfo.isComplete then do
    let retainSession := mode = .claim ∧ uiaainfo.completed.contains .emailIdentity
    updateUiaaSession key (if retainSession then some uiaainfo else none)
    pure (true, uiaainfo)
  else do
    updateUiaaSession key (some uiaainfo)
    pure (false, uiaainfo)

/-- `try_auth_inner` after the `match auth`. -/
def settle (key : SessionKey) (auth : AuthData) (mode : EmailIdentityMode)
    (uiaainfo : UiaaInfo) : UiaaCall (Bool × UiaaInfo) :=
  if mode = .claim ∧ !auth.isEmailIdentity ∧ uiaainfo.completed.contains .emailIdentity then do
    let refreshed ← Action.lift (services.refreshClaim key)
    if refreshed then conclude key mode uiaainfo
    else do
      updateUiaaSession key (some uiaainfo.withoutEmail)
      pure (false, uiaainfo.withoutEmail)
  else conclude key mode uiaainfo

/-- The session the client names is loaded; without one the caller's own information is taken. -/
def currentInfo (user : UserId) (device : DeviceId) (uiaainfo : UiaaInfo) :
    Option String → UiaaCall UiaaInfo
  | some session => getUiaaSession ⟨user, device, session⟩
  | none => pure uiaainfo

section

variable (user : UserId) (device : DeviceId) (auth : AuthData) (uiaainfo : UiaaInfo)

def tryAuthInner
    (mode : EmailIdentityMode) : UiaaCall (Bool × UiaaInfo) := do
  let found ← currentInfo user device uiaainfo auth.session
  let session := found.session.getD services.random
  let key : SessionKey := ⟨user, device, session⟩
  let current := { found with session := some session }
  let verdict ← Action.lift (authenticate services key mode auth)
  match verdict with
  | .completes stage =>
    prove key stage
    settle services key auth mode { current with completed := current.completed ++ [stage] }
  | .changesNothing => settle services key auth mode current
  | .refused message => pure (false, { current with authError := some message })

def tryAuth
    : UiaaCall (Bool × UiaaInfo) :=
  tryAuthInner services user device auth uiaainfo .validate

def tryAuthRegistration
    : UiaaCall (Bool × UiaaInfo) :=
  tryAuthInner services user device auth uiaainfo .claim

end

/-- The flows of `enforce_uiaa`. -/
def registrationFlows (tokenRequired emailRequired : Bool) : List Flow :=
  let stages := (if tokenRequired then [.registrationToken] else []) ++
    (if emailRequired then [.emailIdentity] else [])
  [if stages.isEmpty then [.dummy] else stages]

/-- The flows of `authenticate_uiaa`, which account management asks for. -/
def accountFlows (hasPassword : Bool) : List Flow := if hasPassword then [[.password]] else []

/-- What an endpoint asks of the service: every endpoint brings fresh information with its own flows,
    and names a session before it creates it. -/
inductive UiaaRequest where
  | create (user : UserId) (device : DeviceId) (flows : List Flow) (session : String)
  | tryAuth (services : Services) (user : UserId) (device : DeviceId) (auth : AuthData) (flows : List Flow)
  | tryAuthRegistration (services : Services) (user : UserId) (device : DeviceId) (auth : AuthData)
      (flows : List Flow)
  | delete (key : SessionKey)

def UiaaRequest.perform : UiaaRequest → UiaaCall (Option (Bool × UiaaInfo))
  | .create user device flows session => do
    Auth.create user device { UiaaInfo.new flows with session := some session }
    pure none
  | .tryAuth services user device auth flows => do
    let answer ← Auth.tryAuth services user device auth (.new flows)
    pure (some answer)
  | .tryAuthRegistration services user device auth flows => do
    let answer ← Auth.tryAuthRegistration services user device auth (.new flows)
    pure (some answer)
  | .delete key => do
    updateUiaaSession key none
    pure none

def UiaaStep (before : Uiaa) (request : UiaaRequest) (after : Uiaa) : Prop :=
  (request.perform before).2 = after

end Phantom.Auth
