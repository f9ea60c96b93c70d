import Phantom.Auth.Threepid.Ledger
import Phantom.Lib.Guarded
import Phantom.Lib.Index

namespace Phantom.Auth.Threepid

open Phantom.Lib Function

abbrev ProofWorld := World ProofEvent Proofs

def PendingUse.owner : PendingUse → Option SessionKey
  | .claimed owner => some owner
  | _ => none

def Proofs.owner (proofs : Proofs) (sid : String) : Option SessionKey :=
  (proofs.threepidsidPending sid).bind (·.useState.owner)

theorem owner_setPending (proofs : Proofs) (sid : String) (pending : Option Pending) :
    (proofs.setPending sid pending).owner = update proofs.owner sid (pending.bind (·.useState.owner)) := by
  funext other
  rcases eq_or_ne other sid with rfl | ne
  · simp [Proofs.owner, Proofs.setPending]
  · simp [Proofs.owner, Proofs.setPending, update_of_ne ne]

structure Pending.Matches (pending : Pending) (mint : Mint) : Prop where
  clientSecret : mint.clientSecret = pending.clientSecret
  medium : mint.medium = pending.medium
  address : mint.address = pending.address
  token : mint.token = pending.token
  mismatches : mint.mismatches = pending.attempts
  below : pending.attempts < maxVerifyAttempts
  validated : pending.validatedAt.isSome = true → mint.validated = true
  unredeemed : pending.useState ≠ .spent → mint.redeemed = false
  claimed : ∀ owner, pending.useState = .claimed owner → pending.validatedAt.isSome = true

structure Consistent (world : ProofWorld) : Prop where
  rows : ∀ sid pending, world.store.threepidsidPending sid = some pending →
    ∃ mint, lastMint sid world.trace = some mint ∧ pending.Matches mint
  index : Indexed world.store.userdevicesessionidThreepid world.store.owner
  lawful : Lawful Permitted world.trace

/-- A session is guarded by its own lock, and the index entry of a claim by the lock of the claim. -/
def rowGuard : Guard String ProofEvent Proofs (Option Pending) where
  holder := Proofs.pendingMutex
  part world := world.store.threepidsidPending

def claimGuard : Guard SessionKey ProofEvent Proofs (Option String) where
  holder proofs claim := proofs.claimMutex (claimLockKey claim)
  part world := world.store.userdevicesessionidThreepid

def proofProtocol : Protocol ProofEvent Proofs where
  Inv := Consistent
  May job world after := rowGuard.Respects job world after ∧ claimGuard.Respects job world after
  quiet _ _ := ⟨.of_same rfl fun _ _ => rfl, .of_same rfl fun _ _ => rfl⟩

theorem rowMutex (sid : String) :
    proofProtocol.Mutex (·.pendingMutex sid) (fun who proofs => proofs.lockPending sid who) :=
  rowGuard.mutex sid _ And.left (fun respects => ⟨respects, .of_same rfl fun _ _ => rfl⟩) (fun _ _ => update_self ..)
    (fun _ _ _ => Guard.update_cases ..) (fun _ _ => rfl)
    (fun _ _ consistent => ⟨consistent.rows, consistent.index, consistent.lawful⟩)

theorem claimMutex (claim : SessionKey) : proofProtocol.Mutex (·.claimMutex (claimLockKey claim))
    (fun who proofs => proofs.lockClaim (claimLockKey claim) who) :=
  claimGuard.mutex claim _ And.right (fun respects => ⟨.of_same rfl fun _ _ => rfl, respects⟩) (fun _ _ => update_self ..)
    (fun _ proofs _ => Guard.update_cases proofs.claimMutex ..) (fun _ _ => rfl)
    (fun _ _ consistent => ⟨consistent.rows, consistent.index, consistent.lawful⟩)

section Keep

variable {job : ℕ} {w : ProofWorld} {sid : String} {pending : Pending} {events : List ProofEvent}
variable {row stored : Option Pending} {owner : SessionKey} {points : SessionKey → Option String}

theorem lastMint_others {other : String} {trace : ProofTrace} (apart : ∀ event ∈ events, event.sid ≠ other) :
    lastMint other (trace ++ events.map (job, ·)) = lastMint other trace := by
  induction events generalizing trace with
  | nil => rw [List.map_nil, List.append_nil]
  | cons event events ih =>
    rw [List.map_cons, ← List.singleton_append, ← List.append_assoc, ih fun later mem => apart later (.tail _ mem)]
    exact lastMint_other (apart event (.head _))

/-- The session is stored anew, with an index that agrees with it, and this is reported. -/
theorem Consistent.put (consistent : Consistent w) (about : ∀ event ∈ events, event.sid = sid)
    (index : Indexed points (update w.store.owner sid (stored.bind (·.useState.owner))))
    (here : ∀ pending, stored = some pending →
      ∃ mint, lastMint sid (w.trace ++ events.map (job, ·)) = some mint ∧ pending.Matches mint)
    (lawful : Lawful Permitted (w.trace ++ events.map (job, ·))) :
    Consistent (w.after job events { w.store.setPending sid stored with userdevicesessionidThreepid := points }) where
  rows other pending found := by
    change update w.store.threepidsidPending sid stored other = some pending at found
    rcases eq_or_ne other sid with rfl | ne
    · rw [update_self] at found
      exact here pending found
    · rw [update_of_ne ne] at found
      rw [World.after_trace, lastMint_others fun event mem => by rw [about event mem]; exact ne.symm]
      exact consistent.rows other pending found
  index := by
    rw [← owner_setPending] at index
    exact index
  lawful := lawful

theorem owner_of_row {proofs : Proofs} (row : proofs.threepidsidPending sid = some pending) :
    proofs.owner sid = pending.useState.owner := by
  simp [Proofs.owner, row]

section

variable (consistent : Consistent w)
include consistent

theorem Consistent.unowned (held : w.store.threepidsidPending sid = row)
    (unclaimed : row.bind (·.useState.owner) = none) :
    Indexed w.store.userdevicesessionidThreepid (update w.store.owner sid none) :=
  consistent.index.unowned (by rw [Proofs.owner, held, unclaimed])

theorem Consistent.unlinked (row : w.store.threepidsidPending sid = some pending)
    (owned : pending.useState = .claimed owner) :
    Indexed (update w.store.userdevicesessionidThreepid owner none) (update w.store.owner sid none) :=
  consistent.index.unlink (by rw [owner_of_row row, owned]; rfl)

/-- What is reported of a session that matches its last mint is posted to that mint. -/
theorem Consistent.post {mint : Mint} {event : ProofEvent} (about : event.sid = sid)
    (found : lastMint sid w.trace = some mint) (old : isMinted sid event = false)
    (permitted : Permitted w.trace (job, event))
    (index : Indexed points (update w.store.owner sid (stored.bind (·.useState.owner))))
    (here : ∀ pending, stored = some pending → pending.Matches (mint.post event)) :
    Consistent (w.after job [event] { w.store.setPending sid stored with userdevicesessionidThreepid := points }) := by
  refine consistent.put (fun _ mem => List.mem_singleton.mp mem ▸ about) index (fun pending same =>
    ⟨_, ?_, here pending same⟩)
    (consistent.lawful.concat permitted)
  rw [List.map_singleton, lastMint_concat, found, postProof, if_pos about]
  cases event with
  | minted => exact absurd (old.symm.trans (decide_eq_true about)) Bool.false_ne_true
  | _ => rfl

theorem Consistent.mint (held : w.store.threepidsidPending sid = row)
    (unclaimed : row.bind (·.useState.owner) = none) (attempts : pending.attempts = 0)
    (validatedAt : pending.validatedAt = none) (useState : pending.useState = .available) :
    Consistent (w.after job [.minted sid pending.clientSecret pending.medium pending.address pending.token]
      (w.store.setPending sid (some pending))) := by
  refine consistent.put (by simp [ProofEvent.sid]) ?_ ?_ (consistent.lawful.concat trivial)
  · rw [Option.bind_some, useState]
    exact consistent.unowned held unclaimed
  rintro _ ⟨⟩
  refine ⟨.fresh pending.clientSecret pending.medium pending.address pending.token, ?_, rfl, rfl, rfl, rfl,
    attempts.symm, by rw [attempts]; decide, by grind, fun _ => rfl, by grind⟩
  rw [List.map_singleton, lastMint_concat]
  exact if_pos rfl

theorem Consistent.mismatch {clientSecret token : String} (row : w.store.threepidsidPending sid = some pending)
    (available : pending.useState = .available)
    (counted : ∀ kept, stored = some kept → nextAttempt pending.attempts < maxVerifyAttempts ∧
    kept = { pending with attempts := nextAttempt pending.attempts }) :
    Consistent (w.after job [.compared sid clientSecret token false] (w.store.setPending sid stored)) := by
  obtain ⟨mint, found, matched⟩ := consistent.rows sid pending row
  have free : pending.useState.owner = none := congrArg PendingUse.owner available
  have small := matched.below
  refine consistent.post rfl found rfl ⟨mint, found, by rwa [matched.mismatches]⟩ ?_ ?_
  · have unowned : stored.bind (·.useState.owner) = none := by
      cases stored with
      | none => rfl
      | some kept => rw [(counted kept rfl).2, Option.bind_some, free]
    rw [unowned]
    exact consistent.unowned row free
  · intro kept same
    obtain ⟨below, rfl⟩ := counted kept same
    have next : nextAttempt pending.attempts = pending.attempts + 1 := by
      unfold maxVerifyAttempts at small
      unfold nextAttempt
      omega
    exact { matched with
      mismatches := by rw [next, ← matched.mismatches]; rfl
      below := below }

theorem Consistent.submit {now : ℕ} (row : w.store.threepidsidPending sid = some pending)
    (available : pending.useState = .available) :
    Consistent (w.after job [.compared sid pending.clientSecret pending.token true]
      (w.store.setPending sid (some { pending with validatedAt := some now }))) := by
  obtain ⟨mint, found, matched⟩ := consistent.rows sid pending row
  have free : pending.useState.owner = none := congrArg PendingUse.owner available
  refine consistent.post rfl found rfl ⟨mint, found, matched.clientSecret.symm, matched.token.symm⟩ ?_ ?_
  · rw [Option.bind_some, free]
    exact consistent.unowned row free
  rintro _ ⟨⟩
  exact { matched with
    validated := fun _ => rfl
    claimed := fun _ _ => rfl }

theorem Consistent.claim {expiresAt : Option ℕ} (row : w.store.threepidsidPending sid = some pending)
    (validated : pending.validatedAt.isSome = true)
    (free : pending.useState = .available ∨ pending.useState = .claimed owner)
    (unindexed : ∀ other, w.store.userdevicesessionidThreepid owner = some other → other = sid) :
    Consistent (w.after job [] ((w.store.setPending sid
      (some { pending with expiresAt := expiresAt, useState := .claimed owner })).setIndex owner (some sid))) := by
  obtain ⟨mint, found, matched⟩ := consistent.rows sid pending row
  refine consistent.put nofun (consistent.index.link unindexed ?_) ?_ (by simpa using consistent.lawful)
  · intro other owned
    rw [owner_of_row row] at owned
    rcases free with free | free <;> rw [free] at owned <;> cases owned
    rfl
  · rintro _ ⟨⟩
    refine ⟨mint, by simpa using found, { matched with
      unredeemed := fun _ => matched.unredeemed (by rcases free with free | free <;> rw [free] <;> nofun)
      claimed := fun _ _ => validated }⟩

theorem Consistent.redeem (row : w.store.threepidsidPending sid = some pending)
    (validated : pending.validatedAt.isSome = true) (unspent : pending.useState ≠ .spent)
    (index : Indexed points (update w.store.owner sid none)) :
    Consistent (w.after job [.redeemed sid pending.association]
      { w.store.setPending sid (some { pending with useState := .spent }) with userdevicesessionidThreepid :=
      points }) := by
  obtain ⟨mint, found, matched⟩ := consistent.rows sid pending row
  refine consistent.post rfl found rfl
    ⟨mint, found, matched.validated validated, matched.unredeemed unspent, ?_⟩ index ?_
  · rw [matched.medium, matched.address]
    rfl
  · rintro _ ⟨⟩
    exact { matched with
      unredeemed := fun ne => absurd rfl ne
      claimed := nofun }

theorem Consistent.delete (index : Indexed points (update w.store.owner sid none)) :
    Consistent (w.after job [] { w.store.setPending sid none with userdevicesessionidThreepid := points }) :=
  consistent.put nofun index nofun (by simpa using consistent.lawful)

end

end Keep

end Phantom.Auth.Threepid
