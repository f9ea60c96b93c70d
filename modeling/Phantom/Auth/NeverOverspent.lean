import Mathlib.Data.List.Nodup
import Mathlib.Data.List.Perm.Subperm
import Phantom.Auth.Spending

namespace Phantom.Auth

open Phantom.Lib Phantom.Lib.Protocol

variable {job : ℕ} {w : TokenWorld} {token : String} {α : Type} {info : DatabaseTokenInfo}
variable {Holds : TokenWorld → Prop} {Returned : α → TokenWorld → Prop} {events : List TokenEvent}
variable {change : RegistrationTokens → RegistrationTokens} {Granted : α → Prop} {result : α}

abbrev HasLock (job : ℕ) (token : String) (world : TokenWorld) : Prop := world.store.tokenLocks token = some job

abbrev HasRead (job : ℕ) (token : String) (info : DatabaseTokenInfo) : TokenWorld → Prop :=
  tokenGuard.Held job token (some (info.expires.maxUses, info.uses))

theorem HasLock.stable : spendingProtocol.Stable job (HasLock job token) := tokenGuard.mine_stable id

theorem HasRead.stable : spendingProtocol.Stable job (HasRead job token info) := Guard.held_stable id

variable {rest : Bool → TokenCall α}

theorem wp_attempt (stable : spendingProtocol.Stable job Holds) (holds : Holds w)
    (written : ∀ later, Recorded later → Holds later → spendingProtocol.Takes job Returned (rest true) later
    (later.after job events (change later.store)))
    (failed : ∀ later, Holds later → spendingProtocol.wp job Returned (rest false) later) :
    spendingProtocol.wp job Returned (attempt events change >>= rest) w := by
  apply wp_step stable holds
  intro later drawn reported store kept held taken
  change spendingProtocol.Takes job Returned (rest (!drawn.fails)) later _
  cases fails : drawn.fails with
  | true =>
    simp only [fails, ↓reduceIte, Option.some.injEq, Prod.mk.injEq] at taken
    obtain ⟨rfl, rfl⟩ := taken
    rw [World.after_nil]
    exact ⟨spendingProtocol.quiet job later, kept, failed later held⟩
  | false =>
    simp only [fails, Bool.false_eq_true, ↓reduceIte, Option.some.injEq, Prod.mk.injEq] at taken
    obtain ⟨rfl, rfl⟩ := taken
    exact written later kept held

/-- A call under the lock has the lock when it returns, and where it grants a use it has reported that. -/
def Inside (job : ℕ) (token : String) (Granted : α → Prop) (result : α) (world : TokenWorld) : Prop :=
  HasLock job token world ∧ (Granted result → (job, .granted token) ∈ world.trace)

theorem Inside.stable : spendingProtocol.Stable job (Inside job token Granted result) :=
    HasLock.stable.and stable_reported

theorem returns_ungranted (held : HasLock job token w) (ungranted : ¬ Granted result) :
    spendingProtocol.wp job (Inside job token Granted) (pure result : TokenCall α) w :=
  wp_return Inside.stable ⟨held, fun granted => absurd granted ungranted⟩

theorem wp_remove (held : HasLock job token w)
    (more : ∀ removed later, HasLock job token later → spendingProtocol.wp job Returned (rest removed) later) :
    spendingProtocol.wp job Returned (attempt [] (·.remove token) >>= rest) w :=
  wp_attempt HasLock.stable held (fun _ kept held => kept.leads_removed token (more true _ held))
    (fun _ held => more false _ held)

/-- A call under the lock of the token that goes on with the row it reads. -/
theorem withRow_spec (Granted : α → Prop) {rest : Option DatabaseTokenInfo → TokenCall α}
    (absent : ∀ later, HasLock job token later → spendingProtocol.wp job (Inside job token Granted) (rest none) later)
    (found : ∀ info later, HasRead job token info later →
      spendingProtocol.wp job (Inside job token Granted) (rest (some info)) later) :
    spendingProtocol.wp job (fun result last => Granted result → (job, .granted token) ∈ last.trace)
      (lockedToken token (Task.read (·.registrationtokenInfo.get token) >>= rest)) w := by
  refine wp_locked stable_true trivial (tokenMutex token) (fun _ _ _ => trivial) ?_ (fun _ => stable_reported)
    (fun _ _ granted => granted)
  intro later _ held
  apply wp_read HasLock.stable held.2
  intro reading kept held
  cases row : reading.store.registrationtokenInfo.get token with
  | none => exact absent reading held
  | some info => exact found info reading ⟨held, kept.rows token info row⟩

variable {expires : TokenExpires}

theorem saveToken_spec : spendingProtocol.wp job (fun _ _ => True) (saveToken token expires) w := by
  refine wp_mono (withRow_spec (fun _ => False) ?_ fun _ _ read => returns_ungranted read.1 id) fun _ _ _ => trivial
  intro later held
  refine wp_attempt HasLock.stable held (fun last kept held => ?_) fun _ held => returns_ungranted held id
  refine kept.leads held rfl ?_ nofun (returns_ungranted held id)
  intro other info found
  rcases BTreeMap.get_insert found with ⟨rfl, rfl⟩ | elsewhere
  · exact Or.inl ⟨rfl, if_pos rfl⟩
  · exact Or.inr elsewhere

theorem revokeTokenData_spec : spendingProtocol.wp job (fun _ _ => True) (revokeTokenData token) w := by
  refine wp_mono (withRow_spec (fun _ => False) (fun _ held => returns_ungranted held id) ?_) fun _ _ _ => trivial
  intro info later read
  exact wp_remove read.1 fun _ _ held => returns_ungranted held id

theorem updateTokenData_spec : spendingProtocol.wp job (fun _ _ => True) (updateTokenData token expires) w := by
  refine wp_mono (withRow_spec (fun _ => False) (fun _ held => returns_ungranted held id) ?_) fun _ _ _ => trivial
  intro current later read
  refine wp_attempt HasRead.stable read (fun last kept read => ?_) fun _ read => returns_ungranted read.1 id
  refine kept.leads read.1 rfl ?_ nofun (returns_ungranted read.1 id)
  intro other info found
  rcases BTreeMap.get_insert found with ⟨rfl, rfl⟩ | elsewhere
  · have counted := read.2
    exact Or.inl ⟨rfl, by simp_all [postUse, tokenGuard]⟩
  · exact Or.inr elsewhere

theorem DatabaseTokenInfo.below_of_isValid {now : ℕ}
    (valid : info.isValid now = true) {maxUses : UInt64} (limit : info.expires.maxUses = some maxUses) :
    info.uses < maxUses := by
  grind [DatabaseTokenInfo.isValid]

variable {consume : Bool}

theorem grant_spec (read : HasRead job token info w)
    (below : ∀ maxUses, info.expires.maxUses = some maxUses → info.uses < maxUses)
    (locks : ∀ tokens, (change tokens).tokenLocks = tokens.tokenLocks)
    (shape : ∀ tokens, change tokens = tokens.put token info.use ∨ change tokens = tokens.remove token) :
    spendingProtocol.wp job (Inside job token fun granted => consume = true ∧ granted = true)
      (attempt [.granted token] change) w := by
  refine wp_attempt HasRead.stable read (fun last kept read => ?_) fun _ read => returns_ungranted read.1 (by simp)
  have counted : account token last.trace = some (info.expires.maxUses, info.uses) := read.2
  refine kept.leads read.1 (locks _) ?_ ?_ (wp_return Inside.stable ⟨(congrFun (locks _) token).trans read.1,
    fun _ => ?_⟩)
  · intro other row present
    rcases shape last.store with written | written
    · rw [written] at present
      rcases BTreeMap.get_insert present with ⟨rfl, rfl⟩ | elsewhere
      · exact Or.inl ⟨rfl, by simp [postUse, counted, DatabaseTokenInfo.use]⟩
      · exact Or.inr elsewhere
    · rw [written] at present
      exact Or.inr (BTreeMap.get_erase present)
  · rintro _ ⟨⟩
    exact ⟨_, _, counted, below⟩
  · exact List.mem_append_right _ (List.mem_singleton_self _)

theorem checkToken_spec :
    spendingProtocol.wp job (fun granted last => consume = true ∧ granted = true → (job, .granted token) ∈ last.trace)
    (checkToken token consume) w := by
  refine withRow_spec (fun granted => consume = true ∧ granted = true) (fun _ held => returns_ungranted held (by simp)) ?_
  intro info reading read
  apply wp_look HasRead.stable read
  intro before later _ read
  split
  · exact wp_remove read.1 fun _ _ held => returns_ungranted held (by simp)
  · rename_i valid
    have below : ∀ maxUses, info.expires.maxUses = some maxUses → info.uses < maxUses :=
      fun _ limit => DatabaseTokenInfo.below_of_isValid (by simpa using valid) limit
    split
    · rename_i kind
      exact returns_ungranted read.1 (by simp_all)
    · apply wp_look HasRead.stable read
      intro after later _ read
      split
      · exact grant_spec read below (fun _ => rfl) fun _ => Or.inl rfl
      · exact grant_spec read below (fun _ => rfl) fun _ => Or.inr rfl

variable {stopAtFirst : Bool}

theorem cleanTokens_spec {rows : List (String × DatabaseTokenInfo)} :
    spendingProtocol.wp job (fun _ _ => True) (cleanTokens stopAtFirst rows) w := by
  induction rows generalizing w with
  | nil => exact wp_pure fun _ => trivial
  | cons row rows ih =>
    apply wp_look stable_true trivial
    intro drawn later _ _
    split
    · split
      · exact wp_pure fun _ => trivial
      · exact wp_seq ih fun _ _ _ _ => wp_pure fun _ => trivial
    · exact wp_attempt stable_true trivial (fun _ kept _ => kept.leads_removed row.1 ih) fun _ _ => ih

theorem iterateAndCleanTokens_spec : spendingProtocol.wp job (fun _ _ => True) (iterateAndCleanTokens stopAtFirst) w :=
  wp_read stable_true trivial fun _ _ _ => cleanTokens_spec

theorem isConfigured_spec : spendingProtocol.wp job
    (fun configured last => configured = true → (job, .configured token) ∈ last.trace) (isConfigured token) w := by
  apply wp_draw stable_true trivial
  intro later drawn events store kept _ taken
  cases taken
  by_cases listed : token ∈ drawn.configTokens
  · rw [if_pos listed]
    have accounts : ∀ other, account other (later.after job [.configured token] later.store).trace =
      account other later.trace :=
      fun other => account_concat ..
    refine ⟨.of_same rfl fun other _ => accounts other, ⟨fun other info found => ?_, kept.lawful.concat nofun⟩,
      wp_return stable_reported fun _ => List.mem_append_right _ (List.mem_singleton_self _)⟩
    exact (accounts other).trans (kept.rows other info found)
  · rw [if_neg listed, World.after_nil]
    refine ⟨spendingProtocol.quiet job later, kept, wp_return stable_reported fun configured => ?_⟩
    exact absurd (of_decide_eq_true configured) listed

/-- A call for the token that is answered with `Ok` has found it in the configuration or has had a use
    of it recorded. -/
def Decided (job : ℕ) (token : String) (result : Except TokenError α) (world : TokenWorld) : Prop :=
  ∀ value, result = .ok value → (job, .granted token) ∈ world.trace ∨ (job, .configured token) ∈ world.trace

theorem Decided.stable {result : Except TokenError α} : spendingProtocol.Stable job (Decided job token result) :=
  fun _ _ _ _ _ _ _ held value ok => (held value ok).imp (List.mem_append_left _) (List.mem_append_left _)

theorem check_spec : spendingProtocol.wp job (fun result later => consume = true → Decided job token result later)
      (check token consume) w := by
  apply wp_seq isConfigured_spec
  intro configured later _ reports
  split
  · rename_i listed
    refine wp_returns Decided.stable ?_ fun _ decided _ => decided
    intro _ _
    exact Or.inr (reports listed)
  · apply wp_seq checkToken_spec
    intro valid last _ granted
    refine wp_returns stable_reported granted ?_
    intro final granted consumes value ok
    cases valid with
    | true => exact Or.inl (granted ⟨consumes, rfl⟩)
    | false => cases ok

def Answers (job : ℕ) (request : TokenRequest) (result : Except TokenError TokenReply) (world : TokenWorld) :
    Prop := ∀ token, request = .tryConsume token → Decided job token result world

variable {β : Type}

theorem serve_other {req : TokenRequest} {call : TokenCall β} {reply : β → Except TokenError TokenReply}
    {Returned : β → TokenWorld → Prop} (other : ∀ token, req ≠ .tryConsume token)
    (spec : spendingProtocol.wp job Returned call w) :
    spendingProtocol.wp job (Answers job req) (call >>= fun result => pure (reply result)) w :=
  wp_seq spec fun _ _ _ _ => wp_pure fun _ token same => absurd same (other token)

theorem guarded_spec {refusal : Except TokenError β} {call : TokenCall (Except TokenError β)}
    (spec : ∀ later, spendingProtocol.wp job (fun _ _ => True) call later) : spendingProtocol.wp job (fun _ _ => True)
      (isConfigured token >>= fun configured => if configured = true then pure refusal else call) w := by
  apply wp_seq isConfigured_spec
  intro configured later _ _
  split
  · exact wp_pure fun _ => trivial
  · exact spec later

theorem serve_spec (req : TokenRequest) : spendingProtocol.wp job (Answers job req) req.serve w := by
  cases req with
  | createToken token expires =>
    refine serve_other nofun (?_ : spendingProtocol.wp job (fun _ _ => True) _ _)
    apply wp_look stable_true trivial
    intro drawn later _ _
    exact wp_seq saveToken_spec fun _ _ _ _ => wp_pure fun _ => trivial
  | updateToken token expires => exact serve_other nofun (guarded_spec fun _ => updateTokenData_spec)
  | isTokenValid token => exact serve_other nofun check_spec
  | tryConsume token =>
    apply wp_seq check_spec
    intro result later _ decided
    refine wp_returns Decided.stable (decided rfl) ?_
    rintro last decided _ ⟨⟩ value ok
    cases result with
    | error failure => cases ok
    | ok done => exact decided done rfl
  | revokeToken token => exact serve_other nofun (guarded_spec fun _ => revokeTokenData_spec)
  | iterateTokens =>
    refine serve_other nofun (?_ : spendingProtocol.wp job (fun _ _ => True) _ _)
    apply wp_look stable_true trivial
    intro drawn later _ _
    exact wp_seq iterateAndCleanTokens_spec fun _ _ _ _ => wp_pure fun _ => trivial
  | isEnabled =>
    refine serve_other nofun (?_ : spendingProtocol.wp job (fun _ _ => True) _ _)
    apply wp_look stable_true trivial
    intro drawn later _ _
    split
    · exact wp_seq iterateAndCleanTokens_spec fun _ _ _ _ => wp_pure fun _ => trivial
    · exact wp_pure fun _ => trivial

abbrev TokenRun := Run (Pool.Step TokenRequest.serve fun _ _ => True) (Pool.idle RegistrationTokens.init)

/-- A call that has consumed the token: it took its decision in the given part of the trace, and the
    token was not among those of the configuration. -/
structure Consumed (pool : TokenPool) (token : String) (later : List (ℕ × TokenEvent)) (job : ℕ) : Prop where
  returned : pool.returned job = some (.tryConsume token, .ok .accepted)
  within : ∀ event, (job, event) ∈ pool.world.trace → (job, event) ∈ later
  unlisted : (job, .configured token) ∉ pool.world.trace

theorem grants_of_calls {token : String} {later : List (ℕ × TokenEvent)} {calls : List ℕ}
    (distinct : calls.Nodup) (granted : ∀ job ∈ calls, (job, .granted token) ∈ later) :
    calls.length ≤ grants token later := by
  have entries : (calls.map fun job => (job, TokenEvent.granted token)).Nodup :=
    distinct.map fun _ _ same => congrArg Prod.fst same
  have included : calls.map (fun job => (job, TokenEvent.granted token)) ⊆
      later.filter (fun entry => entry.2 = .granted token) := by
    grind
  have shorter := (List.Nodup.subperm entries included).length_le
  rwa [List.length_map, ← List.countP_eq_length_filter] at shorter

/-- Between its creation with a limit and its next creation, a database token is consumed at most as
    often as the limit says. -/
theorem token_never_overspent {turns : List (Turn TokenRequest Surroundings)} {pool : TokenPool}
    {earlier later rest : List (ℕ × TokenEvent)} {creator : ℕ} {token : String} {maxUses : UInt64}
    {calls : List ℕ} (run : TokenRun turns pool)
    (shape : pool.world.trace = earlier ++ (creator, .created token (some maxUses)) :: (later ++ rest))
    (since : SinceCreation token maxUses later) (distinct : calls.Nodup)
    (consumed : ∀ job ∈ calls, Consumed pool token later job) : calls.length ≤ maxUses.toNat := by
  have empty : Recorded ⟨RegistrationTokens.init, []⟩ := ⟨nofun, .nil⟩
  have sound : Sound spendingProtocol Answers pool :=
    Sound.run (fun _ request _ _ _ => serve_spec request) run (.idle empty)
  have granted : ∀ job ∈ calls, (job, .granted token) ∈ later := by
    intro job called
    have call := consumed job called
    rcases sound.returned call.returned token rfl _ rfl with granted | configured
    · exact call.within _ granted
    · exact absurd configured call.unlisted
  have lawful : Lawful Spendable (earlier ++ [(creator, .created token (some maxUses))] ++ later) := by
    have whole := sound.inv.lawful
    grind [Lawful.take]
  obtain ⟨uses, _, counted, bounded⟩ := account_since lawful since
  calc calls.length ≤ grants token later := grants_of_calls distinct granted
    _ = uses.toNat := counted.symm
    _ ≤ maxUses.toNat := bounded

namespace Sample

def once : TokenExpires := ⟨some 1, none⟩

def around (configTokens : List String) : Surroundings := ⟨0, false, configTokens, "random"⟩

def consuming (configTokens : List String) (first second : ℕ) : List (Turn TokenRequest Surroundings) :=
  [.arrive (.createToken (some "code") once), .arrive (.tryConsume "code"), .arrive (.tryConsume "code")] ++
    List.replicate 5 (.take 0 (around configTokens)) ++ List.replicate first (.take 1 (around configTokens)) ++
    List.replicate second (.take 2 (around configTokens))

/-- A token of the configuration is accepted without limit, also where it is in the database too. -/
theorem configured_token_overspent : ∃ pool, TokenRun (consuming ["code"] 1 1) pool ∧
      pool.world.trace = [(0, .created "code" (some 1)), (1, .configured "code"), (2, .configured "code")] ∧
      pool.returned 1 = some (.tryConsume "code", .ok .accepted) ∧
      pool.returned 2 = some (.tryConsume "code", .ok .accepted) :=
  Pool.exists_run_of_play _ (by decide +kernel) fun _ _ accepted => accepted

theorem token_never_overspent_once : ∃ pool, TokenRun (consuming [] 7 4) pool ∧
      Consumed pool "code" [(1, .granted "code")] 1 ∧ [1].length ≤ (1 : UInt64).toNat := by
  apply Pool.exists_run_of_play (fun pool : TokenPool =>
    pool.world.trace = [(0, .created "code" (some 1)), (1, .granted "code")] ∧
    pool.returned 1 = some (.tryConsume "code", .ok .accepted)) (by decide +kernel)
  rintro pool run ⟨trace, accepted⟩
  have consumed : Consumed pool "code" [(1, .granted "code")] 1 := by
    refine ⟨accepted, ?_, ?_⟩
    · intro event member
      simpa [trace] using member
    · simp [trace]
  have shape : pool.world.trace = [] ++ (0, .created "code" (some 1)) :: ([(1, .granted "code")] ++ []) := trace
  refine ⟨consumed, token_never_overspent run shape ⟨by simp, by simp⟩ (List.nodup_singleton 1) ?_⟩
  intro job member
  rw [List.mem_singleton.mp member]
  exact consumed

end Sample

end Phantom.Auth
