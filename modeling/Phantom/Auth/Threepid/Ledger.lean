import Phantom.Auth.Threepid.Pending
import Phantom.Lib.Lawful
import Phantom.Lib.Protocol

namespace Phantom.Auth.Threepid

open Phantom.Lib

abbrev ProofTrace := List (ℕ × ProofEvent)

/-- What has happened to the token minted last for a session. -/
structure Mint where
  clientSecret : String
  medium : Medium
  address : String
  token : String
  mismatches : ℕ
  validated : Bool
  redeemed : Bool

def Mint.post (mint : Mint) : ProofEvent → Mint
  | .minted .. => mint
  | .compared _ _ _ true => { mint with validated := true }
  | .compared _ _ _ false => { mint with mismatches := mint.mismatches + 1 }
  | .redeemed .. => { mint with redeemed := true }

def ProofEvent.sid : ProofEvent → String
  | .minted sid .. => sid
  | .compared sid .. => sid
  | .redeemed sid _ => sid

def postProof (sid : String) (mint : Option Mint) (entry : ℕ × ProofEvent) : Option Mint :=
  if entry.2.sid = sid then
    match entry.2 with
    | .minted _ clientSecret medium address token =>
      some ⟨clientSecret, medium, address, token, 0, false, false⟩
    | event => mint.map (·.post event)
  else mint

def lastMint (sid : String) (trace : ProofTrace) : Option Mint := trace.foldl (postProof sid) none

@[simp] theorem lastMint_concat (sid : String) (trace : ProofTrace) (entry : ℕ × ProofEvent) :
    lastMint sid (trace ++ [entry]) = postProof sid (lastMint sid trace) entry := by
  simp [lastMint]

variable {sid : String}

theorem lastMint_other {trace : ProofTrace} {entry : ℕ × ProofEvent} (other : entry.2.sid ≠ sid) :
    lastMint sid (trace ++ [entry]) = lastMint sid trace := by
  rw [lastMint_concat]
  exact if_neg other

def Permitted (trace : ProofTrace) (entry : ℕ × ProofEvent) : Prop :=
  match entry.2 with
  | .minted .. => True
  | .compared sid clientSecret token true => ∃ mint, lastMint sid trace = some mint ∧
      clientSecret = mint.clientSecret ∧ token = mint.token
  | .compared sid _ _ false => ∃ mint, lastMint sid trace = some mint ∧ mint.mismatches < maxVerifyAttempts
  | .redeemed sid association => ∃ mint, lastMint sid trace = some mint ∧ mint.validated = true ∧
      mint.redeemed = false ∧ association = ⟨mint.medium, mint.address⟩

section

variable (sid : String) (event : ProofEvent)

def isMinted : Bool :=
  match event with
  | .minted other .. => other = sid
  | _ => false

def isMismatch : Bool :=
  match event with
  | .compared other _ _ equal => other = sid ∧ equal = false
  | _ => false

def isRedeemed : Bool :=
  match event with
  | .redeemed other _ => other = sid
  | _ => false

end

def Mint.fresh (clientSecret : String) (medium : Medium) (address token : String) : Mint :=
  ⟨clientSecret, medium, address, token, 0, false, false⟩

section

variable (sid : String) (trace : ProofTrace)

def mismatches : ℕ := trace.countP fun entry => isMismatch sid entry.2

def redemptions : ℕ := trace.countP fun entry => isRedeemed sid entry.2

theorem mismatches_concat (entry : ℕ × ProofEvent) :
    mismatches sid (trace ++ [entry]) = mismatches sid trace + if isMismatch sid entry.2 then 1 else 0 := by
  simp [mismatches, List.countP_singleton]

theorem redemptions_concat (entry : ℕ × ProofEvent) :
    redemptions sid (trace ++ [entry]) = redemptions sid trace + if isRedeemed sid entry.2 then 1 else 0 := by
  simp [redemptions, List.countP_singleton]

end

structure Since (sid : String) (first : Mint) (later : ProofTrace) (mint : Mint) : Prop where
  same : mint = { first with
    mismatches := mint.mismatches, validated := mint.validated, redeemed := mint.redeemed }
  mismatches : mismatches sid later = mint.mismatches
  bounded : mint.mismatches ≤ maxVerifyAttempts
  redeemed : redemptions sid later = if mint.redeemed then 1 else 0
  validated : mint.validated = true → ∃ job, (job, .compared sid first.clientSecret first.token true) ∈ later

variable {later : ProofTrace} {first mint : Mint}

theorem Since.other {entry : ℕ × ProofEvent} (since : Since sid first later mint) (other : entry.2.sid ≠ sid) :
    Since sid first (later ++ [entry]) mint := by
  obtain ⟨job, event⟩ := entry
  have noMismatch : isMismatch sid event = false := by
    cases event with
    | compared => exact decide_eq_false fun both => other both.1
    | _ => rfl
  have noRedemption : isRedeemed sid event = false := by
    cases event with
    | redeemed => exact decide_eq_false other
    | _ => rfl
  refine ⟨since.same, ?_, since.bounded, ?_, ?_⟩
  · rw [mismatches_concat, noMismatch, since.mismatches]
    rfl
  · rw [redemptions_concat, noRedemption, since.redeemed]
    rfl
  · grind [Since.validated]

theorem Since.post {trace : ProofTrace} {entry : ℕ × ProofEvent} (since : Since sid first later mint)
    (found : lastMint sid trace = some mint) (permitted : Permitted trace entry) (same : entry.2.sid = sid)
    (notMinted : isMinted sid entry.2 = false) : Since sid first (later ++ [entry]) (mint.post entry.2) := by
  obtain ⟨job, event⟩ := entry
  have kept : mint.validated = true → ∃ submitter, (submitter, .compared sid first.clientSecret first.token true) ∈
        later ++ [(job, event)] := by
    grind [Since.validated]
  have self : decide (event.sid = sid) = true := decide_eq_true same
  cases event with
  | minted => exact absurd (notMinted.symm.trans self) nofun
  | compared other clientSecret token equal =>
    cases equal with
    | true =>
      obtain ⟨known, looked, rfl, rfl⟩ := permitted
      cases same
      cases found.symm.trans looked
      refine ⟨?_, ?_, since.bounded, ?_, ?_⟩
      · rw [since.same]
        rfl
      · rw [mismatches_concat, since.mismatches]
        simp [isMismatch, Mint.post]
      · rw [redemptions_concat, since.redeemed]
        rfl
      · intro _
        rw [since.same]
        exact ⟨job, List.mem_append_right _ (List.mem_singleton_self _)⟩
    | false =>
      obtain ⟨known, looked, below⟩ := permitted
      cases same
      cases found.symm.trans looked
      refine ⟨?_, ?_, below, ?_, kept⟩
      · rw [since.same]
        rfl
      · rw [mismatches_concat, since.mismatches]
        simp [isMismatch, Mint.post, ProofEvent.sid]
      · rw [redemptions_concat, since.redeemed]
        rfl
  | redeemed other association =>
    obtain ⟨known, looked, _, notYet, _⟩ := permitted
    cases same
    cases found.symm.trans looked
    refine ⟨?_, ?_, since.bounded, ?_, kept⟩
    · rw [since.same]
      rfl
    · rw [mismatches_concat, since.mismatches]
      rfl
    · rw [redemptions_concat, since.redeemed, notYet]
      simp [isRedeemed, Mint.post, ProofEvent.sid]

theorem mint_since {clientSecret address token : String} {medium : Medium} {earlier : ProofTrace} {minter : ℕ}
    (lawful : Lawful Permitted (earlier ++ [(minter, .minted sid clientSecret medium address token)] ++ later))
    (last : ∀ entry ∈ later, isMinted sid entry.2 = false) :
    ∃ mint, lastMint sid (earlier ++ [(minter, .minted sid clientSecret medium address token)] ++ later) =
      some mint ∧ Since sid (.fresh clientSecret medium address token) later mint := by
  induction later using List.reverseRecOn with
  | nil =>
    refine ⟨.fresh clientSecret medium address token, ?_, rfl, rfl, Nat.zero_le _, rfl, nofun⟩
    rw [List.append_nil, lastMint_concat]
    exact if_pos rfl
  | append_singleton later entry ih =>
    rw [← List.append_assoc] at lawful ⊢
    obtain ⟨mint, found, since⟩ := ih lawful.take fun other mem => last other (by simp [mem])
    rcases ne_or_eq entry.2.sid sid with other | same
    · exact ⟨mint, (lastMint_other other).trans found, since.other other⟩
    · grind [Since.post, Lawful.last, lastMint_concat, postProof, isMinted, ProofEvent.sid]

end Phantom.Auth.Threepid
