import Phantom.Auth.Uiaa

namespace Phantom.Auth.Threepid

open Phantom.Lib Phantom.Accounts

inductive Medium where
  | email
  | msisdn
  | other (name : String)
deriving DecidableEq

inductive PendingUse where
  | available
  | claimed (owner : SessionKey)
  | spent
deriving DecidableEq

/-- Times are seconds since the epoch. -/
structure Pending where
  clientSecret : String
  medium : Medium
  address : String
  token : String
  sendAttempt : ℕ
  attempts : ℕ
  validatedAt : Option ℕ
  expiresAt : Option ℕ
  useState : PendingUse
deriving DecidableEq

structure PendingOutcome where
  sid : String
  freshlyMintedToken : Option String
deriving DecidableEq

structure Association where
  medium : Medium
  address : String
deriving DecidableEq

def maxVerifyAttempts : ℕ := 5

def uiaaSessionTtl : ℕ := 24 * 60 * 60

/-- `u32::saturating_add` of one. -/
def nextAttempt (attempts : ℕ) : ℕ := min (attempts + 1) (2 ^ 32 - 1)

/-- `Option::max`: no time is before every time. -/
def laterOf (left : ℕ) : Option ℕ → Option ℕ
  | some right => some (max left right)
  | none => some left

def Pending.association (pending : Pending) : Association := ⟨pending.medium, pending.address⟩

def Pending.expired (pending : Pending) (now : ℕ) : Bool :=
  pending.expiresAt.any (timepointHasPassed now)

def claimLockKey (claim : SessionKey) : String :=
  claim.userId.asStr ++ "\x00" ++ claim.deviceId.asStr ++ "\x00" ++ claim.session

/-- The pending sessions, the index of claims, and the two maps of locks with the jobs that hold them. -/
structure Proofs where
  threepidsidPending : String → Option Pending
  userdevicesessionidThreepid : SessionKey → Option String
  pendingMutex : String → Option ℕ
  claimMutex : String → Option ℕ

namespace Proofs

def init : Proofs := ⟨fun _ => none, fun _ => none, fun _ => none, fun _ => none⟩

variable (proofs : Proofs)

def lockPending (sid : String) (holder : Option ℕ) : Proofs :=
  { proofs with pendingMutex := Function.update proofs.pendingMutex sid holder }

def lockClaim (key : String) (holder : Option ℕ) : Proofs :=
  { proofs with claimMutex := Function.update proofs.claimMutex key holder }

def setPending (sid : String) (pending : Option Pending) : Proofs :=
  { proofs with threepidsidPending := Function.update proofs.threepidsidPending sid pending }

def setIndex (claim : SessionKey) (sid : Option String) : Proofs :=
  { proofs with userdevicesessionidThreepid := Function.update proofs.userdevicesessionidThreepid claim sid }

end Proofs

/-- A token is minted for a session, submissions are compared with it, and the session is redeemed. -/
inductive ProofEvent where
  | minted (sid clientSecret : String) (medium : Medium) (address token : String)
  | compared (sid clientSecret token : String) (equal : Bool)
  | redeemed (sid : String) (association : Association)
deriving DecidableEq

structure Outside where
  now : ℕ
  random : String

abbrev ProofCall := Task Outside ProofEvent Proofs

inductive ThreepidError where
  | threepidAuthFailed (message : String)
  | notFound (message : String)
  | arithmetic
deriving DecidableEq

def look : ProofCall Outside := Task.draw fun _ proofs => some ([], proofs)

def getPending (sid : String) : ProofCall (Option Pending) := Task.read (·.threepidsidPending sid)

def claimSid (claim : SessionKey) : ProofCall (Option String) :=
  Task.read (·.userdevicesessionidThreepid claim)

def withPendingLock {α : Type} (sid : String) (call : ProofCall α) : ProofCall α := do
  Task.step (fun job _ proofs =>
      if proofs.pendingMutex sid = none then some ([], proofs.lockPending sid (some job)) else none)
    (fun _ _ => .done ())
  let result ← call
  Task.write [] (·.lockPending sid none)
  return result

def withClaimLock {α : Type} (claim : SessionKey) (call : ProofCall α) : ProofCall α := do
  Task.step (fun job _ proofs =>
      if proofs.claimMutex (claimLockKey claim) = none then
        some ([], proofs.lockClaim (claimLockKey claim) (some job))
      else none)
    (fun _ _ => .done ())
  let result ← call
  Task.write [] (·.lockClaim (claimLockKey claim) none)
  return result

def persistPending (events : List ProofEvent) (sid : String) (pending : Pending) : ProofCall Unit :=
  Task.write events (·.setPending sid (some pending))

def deletePendingRows (sid : String) : Option SessionKey → ProofCall Unit
  | none => Task.write [] (·.setPending sid none)
  | some claim => Task.write [] fun proofs => (proofs.setPending sid none).setIndex claim none

def deleteClaimIndex (claim : SessionKey) : ProofCall Unit := Task.write [] (·.setIndex claim none)

def deletePendingState (sid : String) (pending : Pending) : ProofCall Unit :=
  match pending.useState with
  | .claimed claim => withClaimLock claim do
    let claimed ← claimSid claim
    deletePendingRows sid (if claimed = some sid then some claim else none)
  | .available => deletePendingRows sid none
  | .spent => deletePendingRows sid none

variable (sid clientSecret : String)

/-- The end of `create_or_reuse_pending`. -/
def mintPending (medium : Medium) (address : String) (sendAttempt ttl : ℕ) :
    ProofCall (Except ThreepidError PendingOutcome) := do
  let drawn ← look
  match timepointFromNow drawn.now ttl with
  | .error _ => return .error .arithmetic
  | .ok expiresAt => do
    persistPending [.minted sid clientSecret medium address drawn.random] sid
      ⟨clientSecret, medium, address, drawn.random, sendAttempt, 0, none, some expiresAt, .available⟩
    return .ok ⟨sid, some drawn.random⟩

def alreadyUsed : ThreepidError := .threepidAuthFailed "The verification session has already been used"

def hasExpired : ThreepidError := .notFound "The verification session has expired"

def noSession : ThreepidError := .notFound "Not Found"

variable (deriveSid : Medium → String → String → String)

/-- `derive_sid` is a hash of the medium, the address and the secret. -/
def createOrReusePending (clientSecret : String)
    (medium : Medium) (address : String) (sendAttempt ttl : ℕ) :
    ProofCall (Except ThreepidError PendingOutcome) :=
  let sid := deriveSid medium address clientSecret
  withPendingLock sid do
    let row ← getPending sid
    match row with
    | none => mintPending sid clientSecret medium address sendAttempt ttl
    | some existing => do
      let drawn ← look
      if existing.expired drawn.now then do
        deletePendingState sid existing
        mintPending sid clientSecret medium address sendAttempt ttl
      else if existing.useState ≠ .available then return .error alreadyUsed
      else if sendAttempt ≤ existing.sendAttempt then return .ok ⟨sid, none⟩
      else mintPending sid clientSecret medium address sendAttempt ttl

variable (sid clientSecret token : String)

/-- The comparison of a submission with the row. A mismatch is counted, and the last one removes the
    session, which is not claimed here. -/
def comparePending (pending : Pending) :
    ProofCall (Except ThreepidError Unit) :=
  if pending.clientSecret ≠ clientSecret ∨ pending.token ≠ token then do
    let attempts := nextAttempt pending.attempts
    let compared : List ProofEvent := [.compared sid clientSecret token false]
    if attempts ≥ maxVerifyAttempts then Task.write compared (·.setPending sid none)
    else persistPending compared sid { pending with attempts := attempts }
    return .error (.threepidAuthFailed "Invalid verification token")
  else do
    let drawn ← look
    persistPending [.compared sid clientSecret token true] sid { pending with validatedAt := some drawn.now }
    return .ok ()

def validatePendingToken : ProofCall (Except ThreepidError Unit) :=
  withPendingLock sid do
    let row ← getPending sid
    match row with
    | none => return .error noSession
    | some pending => do
      let drawn ← look
      if pending.expired drawn.now then do
        deletePendingState sid pending
        return .error hasExpired
      else if pending.useState ≠ .available then return .error alreadyUsed
      else if pending.validatedAt.isSome then
        return .error (.threepidAuthFailed "The verification session has already been validated")
      else comparePending sid clientSecret token pending

/-- The transaction that stores a claim, in `claim_validated` and in `refresh_claim`. -/
def storeClaim (sid : String) (pending : Pending) (claim : SessionKey) :
    ProofCall (Except ThreepidError Bool) := do
  let drawn ← look
  match timepointFromNow drawn.now uiaaSessionTtl with
  | .error _ => return .error .arithmetic
  | .ok expiresAt => do
    let renewed := { pending with
      expiresAt := laterOf expiresAt pending.expiresAt
      useState := .claimed claim }
    Task.write [] fun proofs => (proofs.setPending sid (some renewed)).setIndex claim (some sid)
    return .ok true

def claimValidated (claim : SessionKey) :
    ProofCall (Except ThreepidError Bool) :=
  withPendingLock sid do
    let row ← getPending sid
    match row with
    | none => return .ok false
    | some pending => do
      let drawn ← look
      if pending.expired drawn.now then do
        deletePendingState sid pending
        return .ok false
      else if pending.clientSecret ≠ clientSecret then return .ok false
      else if pending.validatedAt.isNone then return .ok false
      else if pending.useState ≠ .available ∧ pending.useState ≠ .claimed claim then return .ok false
      else withClaimLock claim do
        let claimed ← claimSid claim
        if claimed.any (· ≠ sid) then return .ok false
        else storeClaim sid pending claim

def refreshClaim (claim : SessionKey) : ProofCall (Except ThreepidError Bool) := do
  let found ← claimSid claim
  match found with
  | none => return .ok false
  | some sid => withPendingLock sid (withClaimLock claim do
    let current ← claimSid claim
    if current ≠ some sid then return .ok false
    else do
      let row ← getPending sid
      match row with
      | none => do
        deleteClaimIndex claim
        return .ok false
      | some pending => do
        let drawn ← look
        if pending.expired drawn.now then do
          deletePendingRows sid (some claim)
          return .ok false
        else if pending.useState ≠ .claimed claim then do
          deleteClaimIndex claim
          return .ok false
        else storeClaim sid pending claim)

def redeemClaim (claim : SessionKey) : ProofCall (Except ThreepidError Association) := do
  let found ← claimSid claim
  match found with
  | none => return .error noSession
  | some sid => withPendingLock sid (withClaimLock claim do
    let current ← claimSid claim
    match current with
    | none => return .error noSession
    | some currentSid =>
      if currentSid ≠ sid then
        return .error (.threepidAuthFailed "The verification session claim has changed")
      else do
        let row ← getPending sid
        match row with
        | none => do
          deleteClaimIndex claim
          return .error noSession
        | some pending => do
          let drawn ← look
          if pending.expired drawn.now then do
            deletePendingRows sid (some claim)
            return .error hasExpired
          else if pending.useState ≠ .claimed claim then do
            deleteClaimIndex claim
            return .error (.threepidAuthFailed "The verification session is not owned by this transaction")
          else do
            Task.write [.redeemed sid pending.association] fun proofs =>
              (proofs.setPending sid (some { pending with useState := .spent })).setIndex claim none
            return .ok pending.association)

def redeemValidated : ProofCall (Except ThreepidError Association) :=
  withPendingLock sid do
    let row ← getPending sid
    match row with
    | none => return .error noSession
    | some pending => do
      let drawn ← look
      if pending.expired drawn.now then do
        deletePendingState sid pending
        return .error hasExpired
      else if pending.clientSecret ≠ clientSecret then
        return .error (.threepidAuthFailed "Client secret does not match")
      else if pending.validatedAt.isNone then
        return .error (.threepidAuthFailed "The address has not been validated")
      else if pending.useState ≠ .available then return .error alreadyUsed
      else do
        persistPending [.redeemed sid pending.association] sid { pending with useState := .spent }
        return .ok pending.association

def sessionValidated : ProofCall Bool := do
  let row ← getPending sid
  match row with
  | none => return false
  | some pending => do
    let drawn ← look
    return !pending.expired drawn.now && pending.clientSecret = clientSecret &&
      pending.validatedAt.isSome && pending.useState = .available

inductive ProofRequest where
  | createOrReusePending (clientSecret : String) (medium : Medium) (address : String) (sendAttempt ttl : ℕ)
  | validatePendingToken (sid clientSecret token : String)
  | claimValidated (sid clientSecret : String) (claim : SessionKey)
  | refreshClaim (claim : SessionKey)
  | redeemClaim (claim : SessionKey)
  | redeemValidated (sid clientSecret : String)
  | sessionValidated (sid clientSecret : String)
deriving DecidableEq

inductive ProofReply where
  | pending (outcome : PendingOutcome)
  | accepted
  | verdict (holds : Bool)
  | association (association : Association)
deriving DecidableEq

def ProofRequest.serve :
    ProofRequest → ProofCall (Except ThreepidError ProofReply)
  | .createOrReusePending clientSecret medium address sendAttempt ttl => do
    let outcome ← Threepid.createOrReusePending deriveSid clientSecret medium address sendAttempt ttl
    return outcome.map .pending
  | .validatePendingToken sid clientSecret token => do
    let validated ← Threepid.validatePendingToken sid clientSecret token
    return validated.map fun _ => .accepted
  | .claimValidated sid clientSecret claim => do
    let claimed ← Threepid.claimValidated sid clientSecret claim
    return claimed.map .verdict
  | .refreshClaim claim => do
    let refreshed ← Threepid.refreshClaim claim
    return refreshed.map .verdict
  | .redeemClaim claim => do
    let redeemed ← Threepid.redeemClaim claim
    return redeemed.map .association
  | .redeemValidated sid clientSecret => do
    let redeemed ← Threepid.redeemValidated sid clientSecret
    return redeemed.map .association
  | .sessionValidated sid clientSecret => do
    let validated ← Threepid.sessionValidated sid clientSecret
    return .ok (.verdict validated)

abbrev ProofPool := Pool ProofRequest Outside ProofEvent Proofs (Except ThreepidError ProofReply)

end Phantom.Auth.Threepid
