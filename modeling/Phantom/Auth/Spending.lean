import Phantom.Auth.RegistrationTokens
import Phantom.Lib.Guarded
import Phantom.Lib.Lawful

namespace Phantom.Auth

open Phantom.Lib Phantom.Lib.Protocol

abbrev TokenWorld := World TokenEvent RegistrationTokens

def postUse (token : String) (account : Option (Option UInt64 × UInt64)) (entry : ℕ × TokenEvent) :
    Option (Option UInt64 × UInt64) :=
  match entry.2 with
  | .created other maxUses => if other = token then some (maxUses, 0) else account
  | .updated other maxUses => if other = token then account.map (fun held => (maxUses, held.2)) else account
  | .granted other => if other = token then account.map (fun held => (held.1, saturatingSucc held.2)) else account
  | .configured _ => account

def account (token : String) (trace : List (ℕ × TokenEvent)) : Option (Option UInt64 × UInt64) :=
  trace.foldl (postUse token) none

@[simp] theorem account_concat (token : String) (trace : List (ℕ × TokenEvent)) (entry : ℕ × TokenEvent) :
    account token (trace ++ [entry]) = postUse token (account token trace) entry := by
  simp [account]

def TokenEvent.token : TokenEvent → String
  | .created token _ => token
  | .updated token _ => token
  | .granted token => token
  | .configured token => token

theorem postUse_other {token : String} {entry : ℕ × TokenEvent}
    (other : entry.2.token ≠ token ∨ entry.2 = .configured token)
    (held : Option (Option UInt64 × UInt64)) : postUse token held entry = held := by
  obtain ⟨job, event⟩ := entry
  cases event with
  | configured => rfl
  | _ => exact if_neg (other.elim id nofun)

def Spendable (trace : List (ℕ × TokenEvent)) (entry : ℕ × TokenEvent) : Prop :=
  ∀ token, entry.2 = .granted token → ∃ limit uses, account token trace = some (limit, uses) ∧
    ∀ maxUses, limit = some maxUses → uses < maxUses

theorem saturatingSucc_of_lt {uses maxUses : UInt64} (below : uses < maxUses) :
    (saturatingSucc uses).toNat = uses.toNat + 1 := by
  grind [UInt64.lt_iff_toNat_lt, UInt64.toNat_lt, UInt64.toNat_add, saturatingSucc]

def grants (token : String) (trace : List (ℕ × TokenEvent)) : ℕ :=
  trace.countP fun entry => entry.2 = .granted token

@[simp] theorem grants_concat (token : String) (trace : List (ℕ × TokenEvent)) (entry : ℕ × TokenEvent) :
    grants token (trace ++ [entry]) = grants token trace + if entry.2 = .granted token then 1 else 0 := by
  simp [grants, List.countP_singleton]

/-- Since the token was created its limit has stayed the same. -/
structure SinceCreation (token : String) (maxUses : UInt64) (later : List (ℕ × TokenEvent)) : Prop where
  once : ∀ job limit, (job, .created token limit) ∉ later
  fixed : ∀ job limit, (job, .updated token limit) ∈ later → limit = some maxUses

theorem SinceCreation.front {token : String} {maxUses : UInt64} {later rest : List (ℕ × TokenEvent)}
    (since : SinceCreation token maxUses (later ++ rest)) : SinceCreation token maxUses later where
  once job limit mem := since.once job limit (List.mem_append_left _ mem)
  fixed job limit mem := since.fixed job limit (List.mem_append_left _ mem)

theorem account_since {earlier later : List (ℕ × TokenEvent)} {creator : ℕ} {token : String} {maxUses : UInt64}
    (lawful : Lawful Spendable (earlier ++ [(creator, .created token (some maxUses))] ++ later))
    (since : SinceCreation token maxUses later) :
    ∃ uses, account token (earlier ++ [(creator, .created token (some maxUses))] ++ later) =
      some (some maxUses, uses) ∧ uses.toNat = grants token later ∧ uses.toNat ≤ maxUses.toNat := by
  induction later using List.reverseRecOn with
  | nil => exact ⟨0, by simp [postUse], rfl, Nat.zero_le _⟩
  | append_singleton later entry ih =>
    rw [← List.append_assoc] at lawful ⊢
    obtain ⟨uses, recorded, counted, bounded⟩ := ih lawful.take since.front
    obtain ⟨job, event⟩ := entry
    rw [account_concat, recorded, grants_concat]
    cases event with
    | created other limit =>
      have ne : other ≠ token := by
        rintro rfl
        exact since.once job limit (by simp)
      exact ⟨uses, if_neg ne, by simpa using counted, bounded⟩
    | updated other limit =>
      grind [SinceCreation.fixed, postUse]
    | granted other =>
      rcases eq_or_ne other token with rfl | ne
      · obtain ⟨limit, before, found, below⟩ := lawful.last other rfl
        grind [saturatingSucc_of_lt, UInt64.lt_iff_toNat_lt, postUse]
      · refine ⟨uses, if_neg ne, ?_, bounded⟩
        simpa [ne] using counted
    | configured other => exact ⟨uses, rfl, by simpa using counted, bounded⟩

structure Recorded (world : TokenWorld) : Prop where
  rows : ∀ token info, world.store.registrationtokenInfo.get token = some info →
    account token world.trace = some (info.expires.maxUses, info.uses)
  lawful : Lawful Spendable world.trace

/-- Only the job that holds the lock of a token changes its account. A row is removed without the lock. -/
def tokenGuard : Guard String TokenEvent RegistrationTokens (Option (Option UInt64 × UInt64)) where
  holder := RegistrationTokens.tokenLocks
  part world token := account token world.trace

abbrev spendingProtocol : Protocol TokenEvent RegistrationTokens := tokenGuard.under Recorded

section Steps

variable {job : ℕ} {w : TokenWorld} {token : String} {store : RegistrationTokens} {Then : TokenWorld → Prop}

theorem tokenMutex (token : String) : spendingProtocol.Mutex (·.tokenLocks token)
    (fun who tokens => { tokens with tokenLocks := Function.update tokens.tokenLocks token who }) :=
  tokenGuard.mutex token _ id id (fun _ _ => Function.update_self ..) (fun _ _ _ => Guard.update_cases ..)
    (fun _ _ => rfl)
    (fun _ _ recorded => ⟨recorded.rows, recorded.lawful⟩)

theorem Recorded.leads {event : TokenEvent} (recorded : Recorded w) (held : w.store.tokenLocks event.token = some job)
    (locks : store.tokenLocks = w.store.tokenLocks)
    (rows : ∀ other info, store.registrationtokenInfo.get other = some info →
      (other = event.token ∧ postUse other (account other w.trace) (job, event) =
        some (info.expires.maxUses, info.uses)) ∨
      (other ≠ event.token ∧ w.store.registrationtokenInfo.get other = some info))
    (spendable : Spendable w.trace (job, event)) (then_ : Then (w.after job [event] store)) :
    spendingProtocol.Leads job w (w.after job [event] store) Then := by
  have apart : ∀ {other}, event.token ≠ other →
      account other (w.after job [event] store).trace = account other w.trace := by
    intro other ne
    rw [World.after_trace, List.map_singleton, account_concat, postUse_other (Or.inl ne)]
  refine ⟨.of_same locks fun other unheld => apart fun same => unheld (same ▸ held), ⟨?_, ?_⟩, then_⟩
  · intro other info found
    rcases rows other info found with ⟨rfl, same⟩ | ⟨ne, before⟩
    · exact (account_concat ..).trans same
    · exact (apart ne.symm).trans (recorded.rows other info before)
  · exact recorded.lawful.concat spendable

theorem Recorded.leads_removed (recorded : Recorded w) (token : String)
    (then_ : Then ⟨w.store.remove token, w.trace⟩) :
    spendingProtocol.Leads job w (w.after job [] (w.store.remove token)) Then := by
  rw [World.after_silent]
  refine ⟨.of_same rfl fun _ _ => rfl, ⟨fun other info found => ?_, recorded.lawful⟩, then_⟩
  exact recorded.rows other info (BTreeMap.get_erase found).2

end Steps

end Phantom.Auth
