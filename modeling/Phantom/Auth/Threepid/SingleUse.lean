import Phantom.Auth.Threepid.Calls

namespace Phantom.Auth.Threepid

open Phantom.Lib Phantom.Lib.Protocol Phantom.Matrix Phantom.Accounts

section Serve

variable {job : ℕ} {w : ProofWorld}

def Redeemed (job : ℕ) (_ : ProofRequest) (result : Except ThreepidError ProofReply) (world : ProofWorld) :
    Prop := ∀ association, result = .ok (.association association) →
  ∃ sid, (job, .redeemed sid association) ∈ world.trace

theorem serve_backed {α : Type} {req : ProofRequest} {call : ProofCall α} {Gives : α → Association → Prop}
    {reply : α → Except ThreepidError ProofReply}
    (given : ∀ result association, reply result = .ok (.association association) → Gives result association)
    (spec : proofProtocol.wp job (Backed Gives job) call w) :
    proofProtocol.wp job (Redeemed job req) (call >>= fun result => pure (reply result)) w :=
  wp_seq spec fun result _ _ backed =>
    wp_returns Backed.stable backed fun _ backed association returned =>
      backed association (given result association returned)

theorem serve_spec {deriveSid : Medium → String → String → String} (req : ProofRequest) :
    proofProtocol.wp job (Redeemed job req) (req.serve deriveSid) w := by
  have yields : ∀ (result : Except ThreepidError Association) association,
      result.map ProofReply.association = .ok (.association association) → Yields result association := by
    rintro (_ | _) association returned
    · cases returned
    · cases returned
      rfl
  cases req with
  | createOrReusePending =>
    refine serve_backed ?_ createOrReusePending_spec
    rintro (_ | _) <;> nofun
  | validatePendingToken =>
    refine serve_backed ?_ validatePendingToken_spec
    rintro (_ | _) <;> nofun
  | claimValidated =>
    refine serve_backed ?_ claimValidated_spec
    rintro (_ | _) <;> nofun
  | refreshClaim =>
    refine serve_backed ?_ refreshClaim_spec
    rintro (_ | _) <;> nofun
  | redeemClaim => exact serve_backed yields redeemClaim_spec
  | redeemValidated => exact serve_backed yields redeemValidated_spec
  | sessionValidated => exact serve_backed nofun sessionValidated_spec

end Serve

variable {sid : String}

theorem exists_lastMint {trace : ProofTrace} {mint : Mint} (found : lastMint sid trace = some mint) :
    ∃ earlier minter clientSecret medium address token later,
      trace = earlier ++ (minter, .minted sid clientSecret medium address token) :: later ∧
      ∀ entry ∈ later, isMinted sid entry.2 = false := by
  induction trace using List.reverseRecOn generalizing mint with
  | nil => cases found
  | append_singleton trace entry ih =>
    obtain ⟨job, event⟩ := entry
    by_cases here : isMinted sid event = true
    · cases event with
      | minted other clientSecret medium address token =>
        cases of_decide_eq_true here
        grind
      | _ => cases here
    · have before : ∃ mint, lastMint sid trace = some mint := by
        rw [lastMint_concat, postProof] at found
        split at found
        · rename_i same
          cases event with
          | minted => exact absurd (decide_eq_true same) here
          | _ =>
            grind [Option.map_eq_some_iff]
        · exact ⟨mint, found⟩
      grind

structure TokenUsedOnce (sid clientSecret : String) (medium : Medium) (address token : String)
    (later : ProofTrace) : Prop where
  once : redemptions sid later ≤ 1
  submitted : ∀ before job association after, later = before ++ (job, .redeemed sid association) :: after →
    association = ⟨medium, address⟩ ∧ ∃ submitter, (submitter, .compared sid clientSecret token true) ∈ before
  guesses : mismatches sid later ≤ 5

theorem tokenUsedOnce_of_lawful {clientSecret address token : String} {medium : Medium} {earlier later : ProofTrace}
    {minter : ℕ}
    (lawful : Lawful Permitted (earlier ++ [(minter, .minted sid clientSecret medium address token)] ++ later))
    (last : ∀ entry ∈ later, isMinted sid entry.2 = false) :
    TokenUsedOnce sid clientSecret medium address token later := by
  obtain ⟨mint, _, since⟩ := mint_since lawful last
  refine ⟨?_, ?_, ?_⟩
  · rw [since.redeemed]
    split <;> omega
  · rintro before job association after rfl
    rw [← List.append_assoc] at lawful
    obtain ⟨known, found, validated, _, same⟩ := lawful _ _ _ rfl
    obtain ⟨mint, found', since⟩ := mint_since (lawful.take) fun entry mem => last entry (by simp [mem])
    cases found.symm.trans found'
    rw [since.same] at same
    exact ⟨same, since.validated validated⟩
  · rw [since.mismatches]
    exact since.bounded

/-- Over a whole run: what is redeemed was minted and submitted before, at most once for each token, and
    the index agrees with the stored sessions. -/
structure SingleUse (world : ProofWorld) : Prop where
  minted : ∀ before job sid association rest, world.trace = before ++ (job, .redeemed sid association) :: rest →
    ∃ earlier minter clientSecret medium address token later,
      before = earlier ++ (minter, .minted sid clientSecret medium address token) :: later ∧
      ∀ entry ∈ later, isMinted sid entry.2 = false
  tokens : ∀ earlier minter sid clientSecret medium address token later rest,
    world.trace = earlier ++ (minter, .minted sid clientSecret medium address token) :: (later ++ rest) →
    (∀ entry ∈ later, isMinted sid entry.2 = false) → TokenUsedOnce sid clientSecret medium address token later
  index : ∀ claim sid, world.store.userdevicesessionidThreepid claim = some sid ↔
    ∃ pending, world.store.threepidsidPending sid = some pending ∧ pending.useState = .claimed claim

theorem Consistent.singleUse {w : ProofWorld} (consistent : Consistent w) : SingleUse w where
  minted before job sid association rest shape := by
    obtain ⟨mint, found, _⟩ := consistent.lawful before (job, .redeemed sid association) rest shape
    exact exists_lastMint found
  tokens earlier minter sid clientSecret medium address token later rest shape last := by
    have lawful := consistent.lawful
    rw [shape, ← List.singleton_append, ← List.append_assoc, ← List.append_assoc] at lawful
    exact tokenUsedOnce_of_lawful lawful.take last
  index claim sid := by
    constructor
    · exact consistent.claimed_of_index
    · rintro ⟨pending, row, claimed⟩
      refine (consistent.index claim sid).mpr ?_
      rw [owner_of_row row, claimed]
      rfl

abbrev ProofRun (deriveSid : Medium → String → String → String) :=
  Run (Pool.Step (ProofRequest.serve deriveSid) fun _ _ => True) (Pool.idle Proofs.init)

theorem threepid_session_single_use (deriveSid : Medium → String → String → String)
    {turns : List (Turn ProofRequest Outside)} {pool : ProofPool} (run : ProofRun deriveSid turns pool) :
    SingleUse pool.world ∧ ∀ job request association,
      pool.returned job = some (request, .ok (.association association)) →
      ∃ sid, (job, .redeemed sid association) ∈ pool.world.trace := by
  have empty : Consistent ⟨Proofs.init, []⟩ := ⟨nofun, .empty, .nil⟩
  have sound : Sound proofProtocol Redeemed pool :=
    Sound.run (fun _ request _ _ _ => serve_spec request) run (.idle empty)
  refine ⟨sound.inv.singleUse, ?_⟩
  intro job request association returned
  exact sound.returned returned association rfl

namespace Sample

def registration : SessionKey := ⟨⟨"@:phantom"⟩, ⟨""⟩, "session"⟩

def steps (job count : ℕ) : List (Turn ProofRequest Outside) := List.replicate count (.take job ⟨0, "token"⟩)

def registering : List (Turn ProofRequest Outside) :=
  [.arrive (.createOrReusePending "secret" .email "alice@phantom" 1 60),
    .arrive (.validatePendingToken "sid" "secret" "token"), .arrive (.claimValidated "sid" "secret" registration),
    .arrive (.redeemClaim registration), .arrive (.redeemValidated "sid" "secret")] ++
    steps 0 5 ++ steps 1 6 ++ steps 2 9 ++ steps 3 9 ++ steps 4 4

theorem threepid_session_single_use_registration : ∃ pool, ProofRun (fun _ _ _ => "sid") registering pool ∧
      pool.returned 3 = some (.redeemClaim registration, .ok (.association ⟨.email, "alice@phantom"⟩)) ∧
      pool.returned 4 = some (.redeemValidated "sid" "secret", .error alreadyUsed) ∧ SingleUse pool.world := by
  apply Pool.exists_run_of_play (fun pool : ProofPool =>
    pool.returned 3 = some (.redeemClaim registration, .ok (.association ⟨.email, "alice@phantom"⟩)) ∧
    pool.returned 4 = some (.redeemValidated "sid" "secret", .error alreadyUsed)) (by decide +kernel)
  rintro pool run ⟨redeemed, refused⟩
  exact ⟨redeemed, refused, (threepid_session_single_use (fun _ _ _ => "sid") run).1⟩

end Sample

end Phantom.Auth.Threepid
