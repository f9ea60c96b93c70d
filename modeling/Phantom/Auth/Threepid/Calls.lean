import Phantom.Auth.Threepid.Moves

namespace Phantom.Auth.Threepid

open Phantom.Lib Phantom.Lib.Protocol Phantom.Accounts Function

variable {job : ℕ} {w : ProofWorld} {sid : String} {claim : SessionKey} {pending : Pending} {α : Type} {result : α}
variable {row stored : Option Pending} {known index : Option String} {clientSecret : String} {events : List ProofEvent}
variable {Returned : α → ProofWorld → Prop} {Gives : α → Association → Prop}

abbrev Locked (job : ℕ) (sid : String) (world : ProofWorld) : Prop := world.store.pendingMutex sid = some job

abbrev HoldsClaim (job : ℕ) (claim : SessionKey) (world : ProofWorld) : Prop :=
  world.store.claimMutex (claimLockKey claim) = some job

abbrev Inside (job : ℕ) (sid : String) (row : Option Pending) : ProofWorld → Prop := rowGuard.Held job sid row

abbrev Holding (job : ℕ) (claim : SessionKey) (index : Option String) : ProofWorld → Prop :=
    claimGuard.Held job claim index

theorem Locked.stable : proofProtocol.Stable job (Locked job sid) := rowGuard.mine_stable And.left

theorem HoldsClaim.stable : proofProtocol.Stable job (HoldsClaim job claim) :=
  @Guard.mine_stable _ _ _ _ claimGuard _ claim _ And.right

theorem Inside.stable : proofProtocol.Stable job (Inside job sid row) := Guard.held_stable And.left

theorem Holding.stable : proofProtocol.Stable job (Holding job claim index) := Guard.held_stable And.right

/-- What a call gives was redeemed by its job. -/
def Backed (Gives : α → Association → Prop) (job : ℕ) (result : α) (world : ProofWorld) : Prop :=
  ∀ association, Gives result association → ∃ sid, (job, .redeemed sid association) ∈ world.trace

theorem Backed.stable : proofProtocol.Stable job (Backed Gives job result) :=
  fun _ _ _ _ _ _ _ backed association gives => (backed association gives).imp fun _ => List.mem_append_left _

/-- A call under the lock of the row, when it returns. -/
def Under (job : ℕ) (sid : String) (Gives : α → Association → Prop) (result : α) (world : ProofWorld) : Prop :=
  Locked job sid world ∧ Backed Gives job result world

theorem Under.stable : proofProtocol.Stable job (Under job sid Gives result) := Locked.stable.and Backed.stable

section Rules

variable {rest : Unit → ProofCall α}

theorem wp_put (inside : Inside job sid row w) (keep : ∀ later, Consistent later → Inside job sid row later →
      Consistent (later.after job events (later.store.setPending sid stored)))
    (more : ∀ last, Inside job sid stored last → (∀ event ∈ events, (job, event) ∈ last.trace) →
      proofProtocol.wp job Returned (rest ()) last) :
    proofProtocol.wp job Returned (Task.write events (·.setPending sid stored) >>= rest) w := by
  apply wp_write Inside.stable inside
  intro later kept inside
  refine ⟨⟨.of_same rfl fun other unheld => ?_, .of_same rfl fun _ _ => rfl⟩, keep later kept inside,
    more _ ⟨inside.1, update_self ..⟩ fun event mem => List.mem_append_right _ (List.mem_map_of_mem mem)⟩
  exact update_of_ne (by rintro rfl; exact unheld inside.1) ..

theorem wp_putBoth (both : Inside job sid row w ∧ Holding job claim known w)
    (keep : ∀ later, Consistent later → Inside job sid row later → Holding job claim known later →
      Consistent (later.after job events ((later.store.setPending sid stored).setIndex claim index)))
    (more : ∀ last, Inside job sid stored last → HoldsClaim job claim last →
      (∀ event ∈ events, (job, event) ∈ last.trace) →
      proofProtocol.wp job Returned (rest ()) last) : proofProtocol.wp job Returned
      (Task.write events (fun proofs => (proofs.setPending sid stored).setIndex claim index) >>= rest) w := by
  apply wp_write (Inside.stable.and Holding.stable) both
  rintro later kept ⟨inside, holding⟩
  refine ⟨⟨.of_same rfl fun other unheld => ?_, .of_same rfl fun other unheld => ?_⟩, keep later kept inside holding,
    more _ ⟨inside.1, update_self ..⟩ holding.1 fun event mem => List.mem_append_right _ (List.mem_map_of_mem mem)⟩
  · exact update_of_ne (by rintro rfl; exact unheld inside.1) ..
  · exact update_of_ne (by rintro rfl; exact unheld holding.1) ..

theorem returns_locked (held : Locked job sid w) (ungiven : ∀ association, ¬ Gives result association) :
    proofProtocol.wp job (Under job sid Gives) (pure result : ProofCall α) w :=
  wp_return Under.stable ⟨held, fun association gives => absurd gives (ungiven association)⟩

theorem refuses (inside : Inside job sid row w) :
    proofProtocol.wp job (Under job sid fun _ _ => False) (pure result : ProofCall α) w :=
  returns_locked inside.1 fun _ => id

theorem withRow_spec {rest : Option Pending → ProofCall α}
    (spec : ∀ row later, Inside job sid row later → proofProtocol.wp job
      (Under job sid Gives) (rest row) later) :
    proofProtocol.wp job (Backed Gives job) (withPendingLock sid (getPending sid >>= rest)) w := by
  refine wp_locked stable_true trivial (rowMutex sid) (fun _ _ _ => trivial) ?_ (fun _ => Backed.stable)
    (fun _ _ backed => backed)
  intro later _ held
  exact wp_read Locked.stable held.2 fun reading _ held => spec _ reading ⟨held, rfl⟩

end Rules

theorem Consistent.claimed_of_index (consistent : Consistent w)
    (points : w.store.userdevicesessionidThreepid claim = some sid) :
    ∃ pending, w.store.threepidsidPending sid = some pending ∧ pending.useState = .claimed claim := by
  have owned := (consistent.index claim sid).mp points
  obtain ⟨pending, row, owner⟩ := Option.bind_eq_some_iff.mp owned
  refine ⟨pending, row, ?_⟩
  cases s : pending.useState with
  | claimed other =>
    rw [s] at owner
    cases owner
    rfl
  | available | spent =>
    rw [s] at owner
    cases owner

theorem deletePendingState_spec (inside : Inside job sid (some pending) w) :
    proofProtocol.wp job (fun _ => Inside job sid none) (deletePendingState sid pending) w := by
  have plain : pending.useState.owner = none →
      proofProtocol.wp job (fun _ => Inside job sid none) (deletePendingRows sid none >>= pure) w := by
    intro unclaimed
    exact wp_put inside (fun _ kept inside => kept.delete (kept.unowned inside.2 unclaimed))
      (fun _ inside _ => wp_return Inside.stable inside)
  unfold deletePendingState
  split
  · rename_i owner claimed
    refine wp_locked Inside.stable inside (claimMutex owner) (fun _ _ inside => inside) ?_ (fun _ => Inside.stable)
      (fun _ _ inside => inside)
    intro later _ both
    apply wp_read (Inside.stable.and HoldsClaim.stable) both
    rintro reading kept ⟨inside, held⟩
    have points := (kept.index owner sid).mpr ((owner_of_row inside.2).trans (congrArg PendingUse.owner claimed))
    rw [if_pos points]
    exact wp_putBoth ⟨inside, held, rfl⟩ (fun _ kept inside _ => kept.delete (kept.unlinked inside.2 claimed))
      (fun _ inside held _ => wp_return (HoldsClaim.stable.and Inside.stable) ⟨held, inside⟩)
  · rename_i available
    exact plain (by rw [available]; rfl)
  · rename_i spent
    exact plain (by rw [spent]; rfl)

variable {sendAttempt : ℕ} {address : String} {medium : Medium} {ttl : ℕ}

theorem mintPending_spec (inside : Inside job sid row w) (unclaimed : row.bind (·.useState.owner) = none) :
    proofProtocol.wp job (Under job sid fun _ _ => False)
      (mintPending sid clientSecret medium address sendAttempt ttl) w := by
  apply wp_look Inside.stable inside
  intro drawn later _ inside
  split
  · exact refuses inside
  · exact wp_put inside (fun _ kept inside => kept.mint inside.2 unclaimed rfl rfl rfl)
      (fun _ inside _ => refuses inside)

theorem createOrReusePending_spec {deriveSid : Medium → String → String → String} :
    proofProtocol.wp job (Backed (fun _ _ => False) job)
      (createOrReusePending deriveSid clientSecret medium address sendAttempt ttl) w := by
  apply withRow_spec
  rintro (_ | existing) reading inside
  · exact mintPending_spec inside rfl
  · apply wp_look Inside.stable inside
    intro drawn later _ inside
    split
    · exact wp_seq (deletePendingState_spec inside) fun _ _ _ inside => mintPending_spec inside rfl
    · split
      · exact refuses inside
      · rename_i available
        split
        · exact refuses inside
        · refine mintPending_spec inside ?_
          rw [Option.bind_some, not_not.mp available]
          rfl

variable {token : String}

theorem comparePending_spec (inside : Inside job sid (some pending) w) (available : pending.useState = .available) :
    proofProtocol.wp job (Under job sid fun _ _ => False)
      (comparePending sid clientSecret token pending) w := by
  unfold comparePending
  split
  · dsimp only
    split
    · exact wp_put inside (fun _ kept inside => kept.mismatch inside.2 available nofun)
        (fun _ inside _ => refuses inside)
    · rename_i below
      refine wp_put inside (fun _ kept inside => kept.mismatch inside.2 available ?_)
        (fun _ inside _ => refuses inside)
      rintro kept ⟨⟩
      exact ⟨Nat.lt_of_not_le below, rfl⟩
  · rename_i equal
    obtain ⟨rfl, rfl⟩ : pending.clientSecret = clientSecret ∧ pending.token = token := by
      rw [not_or, not_not, not_not] at equal
      exact equal
    apply wp_look Inside.stable inside
    intro drawn later _ inside
    exact wp_put inside (fun _ kept inside => kept.submit inside.2 available)
      (fun _ inside _ => refuses inside)

theorem expired_spec (ungiven : ∀ association, ¬ Gives result association) {drawn : Outside} {rest : ProofCall α}
    (inside : Inside job sid (some pending) w)
    (more : proofProtocol.wp job (Under job sid Gives) rest w) :
    proofProtocol.wp job (Under job sid Gives)
      (if pending.expired drawn.now = true then do
        deletePendingState sid pending
        pure result
      else rest) w := by
  split
  · exact wp_seq (deletePendingState_spec inside) fun _ _ _ inside => returns_locked inside.1 ungiven
  · exact more

theorem validatePendingToken_spec :
    proofProtocol.wp job (Backed (fun _ _ => False) job) (validatePendingToken sid clientSecret token) w := by
  apply withRow_spec
  rintro (_ | pending) reading inside
  · exact refuses inside
  · apply wp_look Inside.stable inside
    intro drawn later _ inside
    refine expired_spec (fun _ => id) inside ?_
    split
    · exact refuses inside
    · rename_i available
      split
      · exact refuses inside
      · exact comparePending_spec inside (not_not.mp available)

/-- A call under both locks, when it returns. -/
def Both (job : ℕ) (sid : String) (claim : SessionKey) (Gives : α → Association → Prop) (result : α)
    (world : ProofWorld) : Prop :=
  HoldsClaim job claim world ∧ Under job sid Gives result world

theorem Both.stable : proofProtocol.Stable job (Both job sid claim Gives result) :=
  HoldsClaim.stable.and Under.stable

theorem returns_both (held : Locked job sid w) (holding : HoldsClaim job claim w)
    (ungiven : ∀ association, ¬ Gives result association) :
    proofProtocol.wp job (Both job sid claim Gives) (pure result : ProofCall α) w :=
  wp_return Both.stable ⟨holding, held, fun association gives => absurd gives (ungiven association)⟩

theorem storeClaim_spec (both : Inside job sid (some pending) w ∧ Holding job claim index w)
    (validated : pending.validatedAt.isSome = true)
    (free : pending.useState = .available ∨ pending.useState = .claimed claim)
    (unindexed : ∀ other, index = some other → other = sid) :
    proofProtocol.wp job (Both job sid claim fun _ _ => False) (storeClaim sid pending claim) w := by
  apply wp_look (Inside.stable.and Holding.stable) both
  intro drawn later _ both
  split
  · exact returns_both both.1.1 both.2.1 fun _ => id
  · exact wp_putBoth both
      (fun _ kept inside holding => kept.claim inside.2 validated free fun other points =>
      unindexed other (holding.2.symm.trans points))
      (fun _ inside holding _ => returns_both inside.1 holding fun _ => id)

theorem claimValidated_spec :
    proofProtocol.wp job (Backed (fun _ _ => False) job) (claimValidated sid clientSecret claim) w := by
  apply withRow_spec
  rintro (_ | pending) reading inside
  · exact refuses inside
  · apply wp_look Inside.stable inside
    intro drawn later _ inside
    refine expired_spec (fun _ => id) inside ?_
    split
    · exact refuses inside
    · split
      · exact refuses inside
      · rename_i validated
        split
        · exact refuses inside
        · rename_i free
          rw [not_and_or, not_not, not_not] at free
          refine wp_locked Inside.stable inside (claimMutex claim) (fun _ _ inside => inside) ?_
            (fun _ => Under.stable) fun _ _ returned => returned
          intro later _ both
          apply wp_read (Inside.stable.and HoldsClaim.stable) both
          rintro reading _ ⟨inside, held⟩
          split
          · exact returns_both inside.1 held fun _ => id
          · rename_i same
            refine storeClaim_spec ⟨inside, held, rfl⟩ (by simpa [Option.isSome_iff_ne_none] using validated) free ?_
            intro other (points : reading.store.userdevicesessionidThreepid claim = some other)
            rw [points] at same
            simpa using same

theorem underBoth_spec {call : ProofCall α} (spec : ∀ later, Locked job sid later ∧ HoldsClaim job claim later →
      proofProtocol.wp job (Both job sid claim Gives) call later) :
    proofProtocol.wp job (Backed Gives job) (withPendingLock sid (withClaimLock claim call)) w := by
  refine wp_locked stable_true trivial (rowMutex sid) (fun _ _ _ => trivial) ?_ (fun _ => Backed.stable)
    (fun _ _ backed => backed)
  intro later _ held
  exact wp_locked Locked.stable held.2 (claimMutex claim) (fun _ _ held => held) (fun later _ both => spec later both)
    (fun _ => Under.stable) fun _ _ returned => returned

/-- A call under both locks that goes on only while the claim still points to the session. The session
    is then claimed, so the branches of the source for a missing or foreign session are never taken. -/
theorem claimedRow_spec (ungiven : ∀ association, ¬ Gives result association) {absent foreign : ProofCall α}
    {rest : Pending → ProofCall α} (holding : Holding job claim (some sid) w) (held : Locked job sid w)
    (more : ∀ pending later, Consistent later → Inside job sid (some pending) later ∧ Holding job claim (some sid) later →
      pending.useState = .claimed claim → proofProtocol.wp job (Both job sid claim Gives) (rest pending) later) :
    proofProtocol.wp job (Both job sid claim Gives) (do
      let row ← getPending sid
      match row with
      | none => absent
      | some pending => do
        let drawn ← look
        if pending.expired drawn.now then do
          deletePendingRows sid (some claim)
          pure result
        else if pending.useState ≠ .claimed claim then foreign
        else rest pending) w := by
  apply wp_read (Holding.stable.and Locked.stable) ⟨holding, held⟩
  rintro reading kept ⟨holding, held⟩
  obtain ⟨pending, row, owned⟩ := kept.claimed_of_index holding.2
  rw [row]
  have both : Inside job sid (some pending) reading ∧ Holding job claim (some sid) reading := ⟨⟨held, row⟩, holding⟩
  apply wp_look (Inside.stable.and Holding.stable) both
  intro drawn later kept both
  split
  · exact wp_putBoth both (fun _ kept inside _ => kept.delete (kept.unlinked inside.2 owned))
      (fun _ inside held _ => returns_both inside.1 held ungiven)
  · rw [if_neg (not_not.mpr owned)]
    exact more pending later kept both owned

theorem refreshClaim_spec : proofProtocol.wp job (Backed (fun _ _ => False) job) (refreshClaim claim) w := by
  apply wp_read stable_true trivial
  intro reading _ _
  cases reading.store.userdevicesessionidThreepid claim with
  | none => exact wp_pure fun _ _ => False.elim
  | some sid =>
    apply underBoth_spec
    intro later both
    apply wp_read (Locked.stable.and HoldsClaim.stable) both
    rintro reading _ ⟨held, holds⟩
    split
    · exact returns_both held holds fun _ => id
    · rename_i points
      refine claimedRow_spec (fun _ => id) ⟨holds, not_not.mp points⟩ held ?_
      intro pending later kept both owned
      obtain ⟨mint, _, matched⟩ := kept.rows sid pending both.1.2
      exact storeClaim_spec both (matched.claimed claim owned) (Or.inr owned) fun _ same => (Option.some.inj same).symm

/-- What a redemption gives. -/
def Yields (result : Except ThreepidError Association) (association : Association) : Prop := result = .ok association

theorem backed_redeemed {association : Association}
    (redeemed : ∀ event ∈ [ProofEvent.redeemed sid association], (job, event) ∈ w.trace) :
    Backed Yields job (.ok association) w := by
  rintro _ ⟨⟩
  exact ⟨sid, redeemed _ (List.mem_singleton_self _)⟩

theorem redeemClaim_spec : proofProtocol.wp job (Backed Yields job) (redeemClaim claim) w := by
  apply wp_read stable_true trivial
  intro reading _ _
  cases reading.store.userdevicesessionidThreepid claim with
  | none => exact wp_pure fun _ _ => nofun
  | some sid =>
    apply underBoth_spec
    intro later both
    apply wp_read (Locked.stable.and HoldsClaim.stable) both
    rintro reading _ ⟨held, holds⟩
    cases points : reading.store.userdevicesessionidThreepid claim with
    | none => exact returns_both held holds fun _ => nofun
    | some currentSid =>
      dsimp only
      split
      · exact returns_both held holds fun _ => nofun
      · rename_i same
        cases not_not.mp same
        refine claimedRow_spec (fun _ => nofun) ⟨holds, points⟩ held ?_
        intro pending later _ both owned
        refine wp_putBoth both ?_ fun _ inside holds redeemed =>
          wp_return Both.stable ⟨holds, inside.1, backed_redeemed redeemed⟩
        intro last kept inside _
        obtain ⟨mint, found, matched⟩ := kept.rows sid pending inside.2
        exact kept.redeem inside.2 (matched.claimed claim owned) (fun spent => by cases owned.symm.trans spent)
          (kept.unlinked inside.2 owned)

theorem redeemValidated_spec : proofProtocol.wp job (Backed Yields job) (redeemValidated sid clientSecret) w := by
  apply withRow_spec
  rintro (_ | pending) reading inside
  · exact returns_locked inside.1 fun _ => nofun
  · apply wp_look Inside.stable inside
    intro drawn later _ inside
    refine expired_spec (fun _ => nofun) inside ?_
    split
    · exact returns_locked inside.1 fun _ => nofun
    · split
      · exact returns_locked inside.1 fun _ => nofun
      · rename_i validated
        split
        · exact returns_locked inside.1 fun _ => nofun
        · rename_i available
          have free := not_not.mp available
          refine wp_put inside ?_ fun _ inside redeemed =>
            wp_return Under.stable ⟨inside.1, backed_redeemed redeemed⟩
          intro last kept inside
          exact kept.redeem inside.2 (by simpa [Option.isSome_iff_ne_none] using validated)
            (fun spent => by cases free.symm.trans spent) (kept.unowned inside.2 (congrArg PendingUse.owner free))

theorem sessionValidated_spec :
    proofProtocol.wp job (Backed (fun _ _ => False) job) (sessionValidated sid clientSecret) w := by
  apply wp_read stable_true trivial
  intro reading _ _
  cases reading.store.threepidsidPending sid with
  | none => exact wp_pure fun _ _ => False.elim
  | some pending => exact wp_look stable_true trivial fun _ _ _ _ => wp_pure fun _ _ => False.elim

end Phantom.Auth.Threepid
