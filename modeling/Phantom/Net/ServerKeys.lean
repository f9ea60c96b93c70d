import Phantom.Lib.Action
import Phantom.Matrix.Event

namespace Phantom.Net

open Phantom.Lib Phantom.Matrix Action

abbrev SigningKeyId := String

abbrev VerifyKey := String

/-- What a server answers for its keys. Of an old key only the key itself is read. -/
structure ServerSigningKeys where
  serverName : ServerName
  verifyKeys : SigningKeyId → Option VerifyKey
  oldVerifyKeys : SigningKeyId → Option VerifyKey

/-- The later keys over the earlier ones: `BTreeMap::extend`. -/
def extend (keys more : SigningKeyId → Option VerifyKey) (id : SigningKeyId) : Option VerifyKey := (more id).or (keys id)

def mergeOldKeys (keys : ServerSigningKeys) : ServerSigningKeys :=
  { keys with verifyKeys := extend keys.verifyKeys keys.oldVerifyKeys }

def extractKey (keys : ServerSigningKeys) (id : SigningKeyId) : Option VerifyKey :=
  (keys.verifyKeys id).or (keys.oldVerifyKeys id)

namespace ServerKeys

abbrev Table := ServerName → Option ServerSigningKeys

inductive Error where
  | notFound (message : String)
  | badServerResponse (id : SigningKeyId) (origin : ServerName)

structure Service where
  verifyKeys : SigningKeyId → Option VerifyKey
  serverIsOurs : ServerName → Bool
  notaryFirst : Bool
  notaryOnly : Bool
  trustedServers : List ServerName

/-- What the servers answer while a call runs. -/
structure Network where
  server : ServerName → Option ServerSigningKeys
  notary : ServerName → ServerName → Option (List ServerSigningKeys)

def serverRequest (net : Network) (target : ServerName) : Option ServerSigningKeys :=
  (net.server target).filter fun keys => decide (keys.serverName = target)

def added (table : Table) (newKeys : ServerSigningKeys) : Table :=
  let keys := (table newKeys.serverName).getD ⟨newKeys.serverName, fun _ => none, fun _ => none⟩
  Function.update table newKeys.serverName (some { keys with
    verifyKeys := extend keys.verifyKeys newKeys.verifyKeys
    oldVerifyKeys := extend keys.oldVerifyKeys newKeys.oldVerifyKeys })

def addSigningKeys (newKeys : ServerSigningKeys) : Action Table Error Unit := modify fun table => added table newKeys

section Lookup

variable (service : Service) (net : Network) (origin : ServerName) (id : SigningKeyId)

def verifyKeysFor (table : Table) : SigningKeyId → Option VerifyKey :=
  let keys := ((table origin).map fun keys => (mergeOldKeys keys).verifyKeys).getD fun _ => none
  if service.serverIsOurs origin then extend keys service.verifyKeys else keys

def getVerifyKeyFromNotaries : List ServerName → Action Table Error VerifyKey
  | [] => lift (.fail (.notFound "Failed to fetch signing-key from notaries"))
  | notary :: others =>
    match net.notary notary origin with
    | none => getVerifyKeyFromNotaries others
    | some serverKeys => do
      serverKeys.forM addSigningKeys
      match serverKeys.findSome? fun keys => extractKey keys id with
      | some result => return result
      | none => getVerifyKeyFromNotaries others

def getVerifyKeyFromOrigin : Action Table Error VerifyKey :=
  match serverRequest net origin with
  | none => lift (.fail (.notFound "Failed to fetch signing-key from origin"))
  | some serverKey => do
    addSigningKeys serverKey
    lift (.ofOption (.notFound "Failed to fetch signing-key from origin") (extractKey serverKey id))

/-- A lookup that is made on a condition, and the rest when it is not made or fails. -/
def orElse (asked : Bool) (lookup rest : Action Table Error VerifyKey) : Action Table Error VerifyKey :=
  if asked then do
    match ← lookup.attempt with
    | some result => return result
    | none => rest
  else rest

def getVerifyKey : Action Table Error VerifyKey := do
  let table ← get
  match verifyKeysFor service origin table id with
  | some result => return result
  | none =>
    orElse service.notaryFirst (getVerifyKeyFromNotaries net origin id service.trustedServers) <|
    orElse (!service.notaryOnly) (getVerifyKeyFromOrigin net origin id) <|
    orElse (!service.notaryFirst) (getVerifyKeyFromNotaries net origin id service.trustedServers) <|
    lift (.fail (.badServerResponse id origin))

end Lookup

variable {service : Service} {net : Network} {response answer : ServerSigningKeys} {id : SigningKeyId} {t : Table}
variable {answers : List ServerSigningKeys} {origin : ServerName}

/-- From a table without the key, the call returns it as the response has it and stores the response, or it fails and
    the key is not there. -/
def Fetches (service : Service) (call : Action Table Error VerifyKey) (response : ServerSigningKeys) (id : SigningKeyId) :
    Prop :=
  ∀ t, verifyKeysFor service response.serverName t id = none → call.wp t
    (fun key after => extractKey response id = some key ∧
      verifyKeysFor service response.serverName after id = (mergeOldKeys response).verifyKeys id)
    (fun failure after => (∃ error, failure = .err error) ∧ verifyKeysFor service response.serverName after id = none)

theorem Fetches.fail (error : Error) : Fetches service (lift (.fail error)) response id :=
  fun _ missing => ⟨⟨_, rfl⟩, missing⟩

theorem Fetches.orElse {lookup rest : Action Table Error VerifyKey} (first : Fetches service lookup response id)
    (second : Fetches service rest response id) (asked : Bool) :
    Fetches service (orElse asked lookup rest) response id := by
  intro t missing
  cases asked with
  | false => exact second t missing
  | true =>
    rw [ServerKeys.orElse, if_pos rfl, wp_bind]
    apply wp_attempt
    apply wp_mono (first t missing)
    · exact fun key after fetched => fetched
    · exact fun failure after failed => ⟨failed.1, second after failed.2⟩

namespace Sample

def far : ServerName := ⟨"far.org"⟩

def plain : Service := ⟨fun _ => none, fun _ => false, false, false, []⟩

/-- The key `ed25519:a`, with an old key of the same id beside it or without one. -/
def keys (old : Option VerifyKey) : ServerSigningKeys :=
  ⟨far, Function.update (fun _ => none) "ed25519:a" (some "new"), Function.update (fun _ => none) "ed25519:a" old⟩

def lookup (net : Network) : Action Table Error VerifyKey := getVerifyKey plain net far "ed25519:a"

end Sample

end ServerKeys

end Phantom.Net
