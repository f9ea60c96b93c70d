import Phantom.Keys.Outstanding

namespace Phantom.Keys

open Phantom.Lib Phantom.Matrix Phantom.Accounts Function

variable {Raw : Type}

/-- Only the job that holds the lock of a user hands out keys of that user, and it keeps the lock while others work. -/
def keyProtocol : Protocol (Report Raw) (Tables Raw) where
  Inv := Tidy
  May job world after := ∃ events tables, after = world.after job events tables ∧
    (∀ user other, other ≠ job → world.store.oneTimeKeyLocks user = some other →
    tables.oneTimeKeyLocks user = some other) ∧
    ∀ report ∈ events, ∀ device kid, report.Claims device kid → world.store.oneTimeKeyLocks device.userId = some job
  quiet job world := ⟨[], world.store, (World.after_nil world job).symm, fun _ _ _ held => held,
    fun _ member => absurd member List.not_mem_nil⟩

section Rules

variable {world w : KeyWorld Raw} {job : ℕ} {userId : UserId} {dev : UserDeviceId} {kid : OneTimeKeyId} {value : Raw}
  {α : Type} {Returned : α → KeyWorld Raw → Prop} {Holds : KeyWorld Raw → Prop}

def Holding (job : ℕ) (userId : UserId) (world : KeyWorld Raw) : Prop := world.store.oneTimeKeyLocks userId = some job

theorem holding_stable : keyProtocol.Stable job (@Holding Raw job userId) := by
  rintro other _ _ w ne _ ⟨events, t, same, kept, _⟩ holding
  rw [same]
  exact kept userId job ne.symm holding

theorem found_stable : keyProtocol.Stable job (fun w : KeyWorld Raw =>
    Holding job dev.userId w ∧ Found (KeyWorld.reports w) dev kid value) := by
  rintro other _ _ w ne _ ⟨events, t, same, kept, claims⟩ ⟨holding, found⟩
  rw [same]
  refine ⟨kept dev.userId job ne.symm holding, ?_⟩
  rw [reports_after]
  apply found.append
  intro report mem claimed
  have theirs := claims report mem dev kid claimed
  exact ne (Option.some.inj (theirs.symm.trans holding))

theorem answered_stable {call : Call Raw} {answer : Answer Raw} :
    keyProtocol.Stable job (fun w => Answered w.trace job call answer) := 
  fun _ _ _ _ _ _ _ answered => answered.mono (List.subset_append_left _ _)

variable {t : Tables Raw}

theorem may_of_unclaimed {report : Report Raw} (locks : t.oneTimeKeyLocks = w.store.oneTimeKeyLocks)
    (unclaimed : ∀ dev kid, ¬ report.Claims dev kid) : keyProtocol.May job w (w.after job [report] t) := by
  refine ⟨[report], t, rfl, fun user other _ held => locks ▸ held, ?_⟩
  grind

theorem leads_unseen {Then : KeyWorld Raw → Prop} (tidy : Tidy w)
    (rows : t.onetimekeyidOnetimekeys = w.store.onetimekeyidOnetimekeys)
    (kept : ∀ user other, other ≠ job → w.store.oneTimeKeyLocks user = some other → t.oneTimeKeyLocks user = some other)
    (then_ : Then (w.after job [] t)) : keyProtocol.Leads job w (w.after job [] t) Then :=
  ⟨⟨[], t, rfl, kept, fun _ mem => absurd mem List.not_mem_nil⟩, tidy.unseen rows, then_⟩

theorem wp_marked {rest : Unit → KeyTask Raw α} (stable : keyProtocol.Stable job Holds) (holds : Holds w)
    (framed : ∀ (later : KeyWorld Raw) t, t.oneTimeKeyLocks = later.store.oneTimeKeyLocks → Holds later →
      Holds (later.after job [] t))
    (more : ∀ later : KeyWorld Raw, Holds later → keyProtocol.wp job Returned (rest ()) later) :
    keyProtocol.wp job Returned
      (nextCount >>= fun count => Task.write [] (Tables.putUpdate userId count) >>= rest) w := by
  apply Protocol.wp_step stable holds
  intro later _ events store tidy holds taken
  cases taken
  refine leads_unseen tidy rfl (fun _ _ _ held => held) ?_
  apply Protocol.wp_write stable (framed later later.store.counted rfl holds)
  intro last tidy holds
  exact leads_unseen tidy rfl (fun _ _ _ held => held) (more _ (framed last _ rfl holds))

end Rules

section Calls

variable {w : KeyWorld Raw} {job : ℕ} (serde : Serde)
variable {algorithm : OneTimeKeyAlgorithm} (dev : UserDeviceId)

theorem addOneTimeKey_spec (kid : OneTimeKeyId) (value : Raw) :
    keyProtocol.wp job (fun answer later => Answered later.trace job (.add dev kid value) answer)
      (addOneTimeKey dev kid value) w := by
  apply Protocol.wp_read Protocol.stable_true True.intro
  intro later _ _
  split
  · apply Protocol.wp_write Protocol.stable_true True.intro
    intro found tidy _
    refine ⟨may_of_unclaimed rfl ?_, tidy.upload, ?_⟩
    · rintro other another ⟨_, _, claims⟩
      cases claims
    · have reported : Answered (found.after job [.uploaded dev kid value]
        (found.store.putRow (oneTimeKeyRow dev kid) value)).trace
          job (.add dev kid value) .added := by
        simp [Answered]
      exact wp_marked answered_stable reported (fun _ _ _ held => by simpa using held)
        (fun _ held => Protocol.wp_return answered_stable held)
  · exact Protocol.wp_pure fun _ => True.intro

theorem countOneTimeKeys_spec :
    keyProtocol.wp job (fun answer later => Answered later.trace job (.count dev) answer)
      (countOneTimeKeys dev) w := by
  apply Protocol.wp_observe Protocol.stable_true True.intro
  intro later tidy _ _
  obtain ⟨counts, read, right⟩ := tidy.counts dev
  rw [read]
  have seen : (.counted dev counts : Report Raw).Sight := True.intro
  refine ⟨may_of_unclaimed rfl fun _ _ => seen.unclaimed, tidy.sight right seen, ?_⟩
  have reported : Answered (later.after job [.counted dev counts] later.store).trace job (.count dev)
    (.counts counts) := by
    simp [Answered]
  exact Protocol.wp_return answered_stable reported

variable {row : Bytes × Raw}

theorem Tidy.first (tidy : Tidy w) {dev : UserDeviceId}
    (found : (w.store.rawStream (claimStart dev algorithm)).head? = some row) :
    ∃ kid, row.1 = oneTimeKeyRow dev kid ∧ Latest (KeyWorld.reports w) dev kid row.2 ∧
      (kid.algorithm = algorithm ↔ ':' ∉ algorithm.asStr.toList) := by
  have mem := List.mem_of_head? found
  rw [Tables.rawStream, BTreeMap.takeWhile_seek_isPrefix] at mem
  obtain ⟨entry, begins⟩ := List.mem_filter.mp mem
  have key := (tidy.rows row.1).mp (List.mem_map.mpr ⟨row, entry, rfl⟩)
  obtain ⟨⟨other, kid⟩, _, same⟩ := List.mem_map.mp key
  have begins := of_decide_eq_true begins
  rw [← same] at begins
  obtain ⟨rfl, fits⟩ := claimStart_isPrefix begins
  grind [Tidy.values, BTreeMap.get_eq_some]

theorem removeClaimed_spec {dev : UserDeviceId} {kid : OneTimeKeyId} (key : row.1 = oneTimeKeyRow dev kid)
    (fits : kid.algorithm = algorithm ↔ ':' ∉ algorithm.asStr.toList) (holding : Holding job dev.userId w)
    (found : Found (KeyWorld.reports w) dev kid row.2) : keyProtocol.wp job
      (fun answer later => Answered later.trace job (.take dev algorithm) answer ∧ Holding job dev.userId later)
      (removeClaimed serde dev algorithm row) w := by
  rw [removeClaimed, key, rowKeyId_oneTimeKeyRow]
  apply Protocol.wp_write found_stable ⟨holding, found⟩
  rintro last tidy ⟨holdingLast, foundLast⟩
  refine ⟨⟨_, _, rfl, fun _ _ _ held => held, ?_⟩, tidy.claim foundLast fits, ?_⟩
  · intro report mem other another claims
    rw [List.mem_singleton.mp mem] at claims
    obtain ⟨_, _, same⟩ := claims
    cases same
    exact holdingLast
  · have reported : Answered (last.after job [.claimed dev algorithm kid row.2]
        (last.store.removeRow (oneTimeKeyRow dev kid))).trace job (.take dev algorithm) (.taken kid row.2) := by
      simp [Answered]
    exact Protocol.wp_return (answered_stable.and holding_stable) ⟨reported, holdingLast⟩

variable (algorithm : OneTimeKeyAlgorithm)

theorem claimFirst_spec (holding : Holding job dev.userId w) :
    keyProtocol.wp job
      (fun answer later => Answered later.trace job (.take dev algorithm) answer ∧ Holding job dev.userId later)
      (claimFirst serde dev algorithm) w := by
  apply Protocol.wp_observe holding_stable holding
  intro later tidy holdingLater _
  cases first : (later.store.rawStream (claimStart dev algorithm)).head? with
  | some row =>
    obtain ⟨kid, key, latest, fits⟩ := tidy.first first
    have reported : foundReport serde dev (some row) = [.found dev kid row.2] := by
      rw [foundReport, key, rowKeyId_oneTimeKeyRow]
      rfl
    rw [reported]
    have right : Right (KeyWorld.reports later) (.found dev kid row.2) := latest
    have seen : (Report.found dev kid row.2).Sight := True.intro
    refine ⟨may_of_unclaimed rfl fun _ _ => seen.unclaimed, tidy.sight right seen, ?_⟩
    exact removeClaimed_spec serde key fits holdingLater (reports_after ▸ latest.found)
  | none =>
    rw [foundReport, World.after_nil]
    refine ⟨keyProtocol.quiet job later, tidy, ?_⟩
    exact Protocol.wp_returns holding_stable holdingLater fun _ held => ⟨True.intro, held⟩

theorem takeOneTimeKey_spec :
    keyProtocol.wp job (fun answer later => Answered later.trace job (.take dev algorithm) answer)
      (takeOneTimeKey serde dev algorithm) w := by
  have marked : ∀ later : KeyWorld Raw, Tidy later → Holding job dev.userId later → keyProtocol.wp job
      (fun answer last => Answered last.trace job (.take dev algorithm) answer ∧ Holding job dev.userId last)
      (nextCount >>= fun count => Task.write [] (Tables.putUpdate dev.userId count) >>=
        fun _ => claimFirst serde dev algorithm) later :=
    fun later _ holding => wp_marked holding_stable holding (fun _ _ locks held => (congrFun locks _).trans held)
      (fun _ held => claimFirst_spec serde dev algorithm held)
  refine Protocol.wp_section Protocol.stable_true True.intro ?_ marked
    (fun _ => answered_stable.and holding_stable) ?_ fun _ => answered_stable
  · intro later _ events store tidy _ taken
    split at taken
    · rename_i free
      cases taken
      refine leads_unseen tidy rfl ?_ (update_self _ _ _)
      intro user other _ held
      have ne : user ≠ dev.userId := by
        rintro rfl
        cases free.symm.trans held
      exact (update_of_ne ne _ _).trans held
    · cases taken
  · rintro answer last tidy ⟨answered, holding⟩
    refine leads_unseen tidy rfl ?_ (by simpa using answered)
    intro user other another held
    have ne : user ≠ dev.userId := by
      rintro rfl
      exact another (Option.some.inj (held.symm.trans holding))
    exact (update_of_ne ne _ _).trans held

theorem call_spec (call : Call Raw) :
    keyProtocol.wp job (fun answer later => Answered later.trace job call answer) (call.task serde) w := by
  cases call with
  | add dev kid value => exact addOneTimeKey_spec dev kid value
  | take dev algorithm => exact takeOneTimeKey_spec serde dev algorithm
  | count dev => exact countOneTimeKeys_spec dev

theorem tidy_start (metadata : UserDeviceId → Bool) : Tidy (⟨Tables.start metadata, []⟩ : KeyWorld Raw) where
  rows _ := Iff.rfl
  values _ _ _ present := by cases present
  right past report later split := by
    have lengths := congrArg List.length split
    simp [KeyWorld.reports] at lengths

end Calls

/-- In every interleaving of calls, what the calls answer is what was reported of them, and each report is right where
    it was made. -/
theorem one_time_keys_handed_out (serde : Serde) (metadata : UserDeviceId → Bool) {turns : List (Turn (Call Raw) Unit)}
    {pool : Pool (Call Raw) Unit (Report Raw) (Tables Raw) (Answer Raw)}
    (run : Run (Pool.Step (Call.task serde) fun _ _ => True) (Pool.idle (Tables.start metadata)) turns pool) :
    (∀ job call answer, pool.returned job = some (call, answer) → Answered pool.world.trace job call answer) ∧
      ∀ past report later, KeyWorld.reports pool.world = past ++ report :: later → Right past report := by
  have sound : Protocol.Sound keyProtocol (fun job call answer world => Answered world.trace job call answer) pool :=
    Protocol.Sound.run (fun _ call _ _ _ => call_spec serde call) run (.idle (tidy_start metadata))
  exact ⟨fun job call answer ended => sound.returned ended, sound.inv.right⟩

namespace Sample

def device : UserDeviceId := ⟨⟨"@alice:phantom"⟩, ⟨"PHONE"⟩⟩

theorem plain_a : Plain "a".toList := by
  intro char mem
  rw [List.mem_singleton.mp mem]
  rfl

def kid : OneTimeKeyId := ⟨⟨"a"⟩, "b:c", by decide, plain_a⟩

def asked : OneTimeKeyAlgorithm := ⟨"a:b"⟩

noncomputable def serde : Serde where
  fromSlice bytes := if bytes = kid.toJson then some kid else Function.partialInv OneTimeKeyId.toJson bytes
  fromSlice_toJson other := by
    split
    · rename_i same
      rw [toJson_injective same]
    · exact Function.partialInv_left toJson_injective other

def visit (algorithm : OneTimeKeyAlgorithm) : List (Turn (Call ℕ) Unit) :=
  [.arrive (.add device kid 1), .arrive (.take device algorithm), .arrive (.count device)] ++
    List.replicate 4 (.take 0 ()) ++ List.replicate 6 (.take 1 ()) ++ [.take 2 ()]

/-- The key is uploaded once more between the steps in which a claim finds it and removes it. -/
def uploadedAgain : List (Turn (Call ℕ) Unit) :=
  [.arrive (.add device kid 1), .arrive (.take device kid.algorithm), .arrive (.add device kid 2),
  .arrive (.count device)] ++
    List.replicate 4 (.take 0 ()) ++ List.replicate 4 (.take 1 ()) ++ List.replicate 4 (.take 2 ()) ++
    List.replicate 2 (.take 1 ()) ++ [.take 3 ()]

theorem wrong_algorithm_and_lost_upload :
    (∃ pool, Run (Pool.Step (Call.task serde) fun _ _ => True) (Pool.idle (Tables.start fun _ => true))
    (visit asked) pool ∧
      pool.returned 1 = some (.take device asked, .taken kid 1) ∧ kid.algorithm ≠ asked) ∧
    ∃ pool, Run (Pool.Step (Call.task serde) fun _ _ => True)
      (Pool.idle (Tables.start fun _ => true)) uploadedAgain pool ∧
      pool.returned 1 = some (.take device kid.algorithm, .taken kid 1) ∧
      pool.returned 2 = some (.add device kid 2, .added) ∧
      pool.returned 3 = some (.count device, .counts .empty) :=
  ⟨Pool.exists_run_of_play _ (by decide +kernel) fun _ _ returned => returned,
    Pool.exists_run_of_play _ (by decide +kernel) fun _ _ returned => returned⟩

theorem one_time_keys_handed_out_visit : ∃ pool, Run (Pool.Step (Call.task serde) fun _ _ => True)
      (Pool.idle (Tables.start fun _ => true)) (visit kid.algorithm) pool ∧
    pool.returned 1 = some (.take device kid.algorithm, .taken kid 1) ∧
    Answered pool.world.trace 1 (.take device kid.algorithm) (.taken kid 1) ∧
    ∀ past report later, KeyWorld.reports pool.world = past ++ report :: later → Right past report := by
  apply Pool.exists_run_of_play (fun pool => pool.returned 1 = some (.take device kid.algorithm, .taken kid 1))
    (by decide +kernel)
  intro pool run ended
  obtain ⟨answered, right⟩ := one_time_keys_handed_out serde (fun _ => true) run
  exact ⟨ended, answered 1 _ _ ended, right⟩

end Sample

end Phantom.Keys
