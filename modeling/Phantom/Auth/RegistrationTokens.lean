import Mathlib.Data.String.Basic
import Phantom.Lib.BTree
import Phantom.Lib.Protocol

namespace Phantom.Auth

open Phantom.Lib

/-- `u64::saturating_add` of one. -/
def saturatingSucc (uses : UInt64) : UInt64 :=
  if uses = 18446744073709551615 then uses else uses + 1

/-- Times are seconds since the epoch. -/
structure TokenExpires where
  maxUses : Option UInt64
  maxAge : Option ℕ
deriving DecidableEq

structure DatabaseTokenInfo where
  uses : UInt64
  expires : TokenExpires
deriving DecidableEq

namespace DatabaseTokenInfo

def isValid (info : DatabaseTokenInfo) (now : ℕ) : Bool :=
  if info.expires.maxUses.any (fun maxUses => info.uses ≥ maxUses) then false
  else !info.expires.maxAge.any fun maxAge => now > maxAge

def use (info : DatabaseTokenInfo) : DatabaseTokenInfo := { info with uses := saturatingSucc info.uses }

end DatabaseTokenInfo

/-- The table of the database tokens, and the locks with the jobs that hold them. -/
structure RegistrationTokens where
  registrationtokenInfo : BTreeMap String DatabaseTokenInfo
  tokenLocks : String → Option ℕ

namespace RegistrationTokens

def init : RegistrationTokens := ⟨.empty, fun _ => none⟩

variable (tokens : RegistrationTokens)

def lock (token : String) (job : ℕ) : RegistrationTokens :=
  { tokens with tokenLocks := Function.update tokens.tokenLocks token (some job) }

def unlock (token : String) : RegistrationTokens :=
  { tokens with tokenLocks := Function.update tokens.tokenLocks token none }

def put (token : String) (info : DatabaseTokenInfo) : RegistrationTokens :=
  { tokens with registrationtokenInfo := tokens.registrationtokenInfo.insert token info }

def remove (token : String) : RegistrationTokens :=
  { tokens with registrationtokenInfo := tokens.registrationtokenInfo.erase token }

end RegistrationTokens

/-- What happens to a token: it is created or gets another limit, a use of it is recorded, or it is
    found among the tokens of the configuration. -/
inductive TokenEvent where
  | created (token : String) (maxUses : Option UInt64)
  | updated (token : String) (maxUses : Option UInt64)
  | granted (token : String)
  | configured (token : String)
deriving DecidableEq

/-- What a step finds outside the store: the clock, whether a storage write fails, the tokens in the
    configuration and in its file, and a random string. -/
structure Surroundings where
  now : ℕ
  fails : Bool
  configTokens : List String
  random : String

abbrev TokenCall := Task Surroundings TokenEvent RegistrationTokens

inductive TokenError where
  | invalidParam (message : String)
  | notFound (message : String)
  | forbidden (message : String)
  | database
deriving DecidableEq

def look : TokenCall Surroundings := Task.draw fun _ tokens => some ([], tokens)

def attempt (events : List TokenEvent) (change : RegistrationTokens → RegistrationTokens) :
    TokenCall Bool :=
  .step (fun _ drawn tokens => if drawn.fails then some ([], tokens) else some (events, change tokens))
    (fun drawn _ => .done (!drawn.fails))

def lockedToken {α : Type} (token : String) (call : TokenCall α) : TokenCall α := do
  Task.step (fun job _ tokens =>
      if tokens.tokenLocks token = none then some ([], tokens.lock token job) else none)
    (fun _ _ => .done ())
  let result ← call
  Task.write [] (·.unlock token)
  return result

def saveToken (token : String) (expires : TokenExpires) :
    TokenCall (Except TokenError DatabaseTokenInfo) :=
  lockedToken token do
    let row ← Task.read (·.registrationtokenInfo.get token)
    match row with
    | none => do
      let info : DatabaseTokenInfo := ⟨0, expires⟩
      let written ← attempt [.created token expires.maxUses] (·.put token info)
      return if written then .ok info else .error .database
    | some _ => return .error (.invalidParam "Registration token already exists")

def revokeTokenData (token : String) : TokenCall (Except TokenError Unit) :=
  lockedToken token do
    let row ← Task.read (·.registrationtokenInfo.get token)
    match row with
    | some _ => do
      let removed ← attempt [] (·.remove token)
      return if removed then .ok () else .error .database
    | none => return .error (.notFound "Registration token not found")

def checkToken (token : String) (consume : Bool) : TokenCall Bool :=
  lockedToken token do
    let row ← Task.read (·.registrationtokenInfo.get token)
    match row with
    | none => return false
    | some info => do
      let before ← look
      if !info.isValid before.now then do
        let _ ← attempt [] (·.remove token)
        return false
      else if !consume then return true
      else do
        let after ← look
        if info.use.isValid after.now then attempt [.granted token] (·.put token info.use)
        else attempt [.granted token] (·.remove token)

def updateTokenData (token : String) (expires : TokenExpires) :
    TokenCall (Except TokenError DatabaseTokenInfo) :=
  lockedToken token do
    let row ← Task.read (·.registrationtokenInfo.get token)
    match row with
    | some current => do
      let info : DatabaseTokenInfo := ⟨current.uses, expires⟩
      let written ← attempt [.updated token expires.maxUses] (·.put token info)
      return if written then .ok info else .error .database
    | none => return .error (.notFound "Registration token not found")

/-- `iterate_and_clean_tokens` over the rows that were there when the iteration began. It takes no lock;
    where `stopAtFirst` is set, the stream is dropped after its first item. -/
def cleanTokens (stopAtFirst : Bool) :
    List (String × DatabaseTokenInfo) → TokenCall (List (String × DatabaseTokenInfo))
  | [] => return []
  | (token, info) :: rows => do
    let drawn ← look
    if info.isValid drawn.now then
      if stopAtFirst then return [(token, info)]
      else do
        let others ← cleanTokens stopAtFirst rows
        return (token, info) :: others
    else do
      let _ ← attempt [] (·.remove token)
      cleanTokens stopAtFirst rows

def iterateAndCleanTokens (stopAtFirst : Bool) : TokenCall (List (String × DatabaseTokenInfo)) := do
  let rows ← Task.read (·.registrationtokenInfo.entries)
  cleanTokens stopAtFirst rows

def isConfigured (token : String) : TokenCall Bool := do
  let drawn ← Task.draw fun drawn tokens =>
    some (if token ∈ drawn.configTokens then [.configured token] else [], tokens)
  return decide (token ∈ drawn.configTokens)

def createToken (token : Option String) (expires : TokenExpires) :
    TokenCall (Except TokenError (String × DatabaseTokenInfo)) := do
  let drawn ← look
  let chosen := token.getD drawn.random
  let saved ← saveToken chosen expires
  return saved.map (chosen, ·)

section

variable (token : String)

def updateToken (expires : TokenExpires) :
    TokenCall (Except TokenError DatabaseTokenInfo) := do
  let configured ← isConfigured token
  if configured then
    return .error (.forbidden "The token set in the config file cannot be updated")
  else updateTokenData token expires

def check (consume : Bool) : TokenCall (Except TokenError Unit) := do
  let configured ← isConfigured token
  if configured then return .ok ()
  else do
    let valid ← checkToken token consume
    return if valid then .ok () else .error (.forbidden "Registration token not valid")

def isTokenValid : TokenCall (Except TokenError Unit) := check token false

def tryConsume : TokenCall (Except TokenError Unit) := check token true

def revokeToken : TokenCall (Except TokenError Unit) := do
  let configured ← isConfigured token
  if configured then
    return .error (.forbidden ("The token set in the config file cannot be revoked. " ++
      "Edit the config file to change it."))
  else revokeTokenData token

end

inductive TokenInfo where
  | config
  | database (info : DatabaseTokenInfo)
deriving DecidableEq

def iterateTokens : TokenCall (List (String × TokenInfo)) := do
  let drawn ← look
  let rows ← iterateAndCleanTokens false
  return drawn.configTokens.map (·, .config) ++ rows.map fun row => (row.1, .database row.2)

def isEnabled : TokenCall Bool := do
  let drawn ← look
  if drawn.configTokens.isEmpty then do
    let rows ← iterateAndCleanTokens true
    return !rows.isEmpty
  else return true

inductive TokenRequest where
  | createToken (token : Option String) (expires : TokenExpires)
  | updateToken (token : String) (expires : TokenExpires)
  | isTokenValid (token : String)
  | tryConsume (token : String)
  | revokeToken (token : String)
  | iterateTokens
  | isEnabled
deriving DecidableEq

inductive TokenReply where
  | accepted
  | created (token : String) (info : DatabaseTokenInfo)
  | updated (info : DatabaseTokenInfo)
  | tokens (valid : List (String × TokenInfo))
  | enabled (enabled : Bool)
deriving DecidableEq

def TokenRequest.serve : TokenRequest → TokenCall (Except TokenError TokenReply)
  | .createToken token expires => do
    let created ← Auth.createToken token expires
    return created.map fun created => .created created.1 created.2
  | .updateToken token expires => do
    let updated ← Auth.updateToken token expires
    return updated.map .updated
  | .isTokenValid token => do
    let valid ← Auth.isTokenValid token
    return valid.map fun _ => .accepted
  | .tryConsume token => do
    let consumed ← Auth.tryConsume token
    return consumed.map fun _ => .accepted
  | .revokeToken token => do
    let revoked ← Auth.revokeToken token
    return revoked.map fun _ => .accepted
  | .iterateTokens => do
    let tokens ← Auth.iterateTokens
    return .ok (.tokens tokens)
  | .isEnabled => do
    let enabled ← Auth.isEnabled
    return .ok (.enabled enabled)

abbrev TokenPool := Pool TokenRequest Surroundings TokenEvent RegistrationTokens (Except TokenError TokenReply)

end Phantom.Auth
