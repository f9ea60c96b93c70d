import Phantom.Accounts.Steps

namespace Phantom.Accounts

open Phantom.Lib Phantom.Matrix Phantom.Lib.Protocol

variable {job : ℕ} {events : List Event} {tables t : Tables}
variable {cfg : AuthConfig} {presented : Token} {deviceId : Option DeviceId}
variable {dev : UserDeviceId}

section

variable (stands : At job none events t)
include stands

theorem generate_spec {token : ℕ → Token} :
    tokenProtocol.wp job (fun drawn later => (∃ secret, drawn = token secret) ∧
      At job none (events ++ [.drew drawn]) later) (generate token) t := by
  apply wp_step At.stable stands
  intro later drawn reported store _ held taken
  split at taken
  · cases taken
  · rename_i fresh
    cases taken
    refine ⟨.draw _ fresh, trivial, ?_⟩
    exact At.returns (At.after held rfl) fun _ final => ⟨⟨_, rfl⟩, final⟩

theorem generateAccessToken_spec {expires : Bool} :
    tokenProtocol.wp job (fun result later => result.1.isRefreshToken = false ∧
      At job none (events ++ [.drew result.1]) later) (generateAccessToken cfg expires) t := by
  apply wp_seq (generate_spec stands)
  rintro _ later _ ⟨⟨secret, rfl⟩, held⟩
  exact held.returns fun _ final => ⟨rfl, final⟩

theorem removeTokens_spec (settled : Settled events) : tokenProtocol.wp job (fun _ later => At job none
      (events ++ [.acquired dev.userId, .clearedAccess dev, .clearedRefresh dev]) later) (removeTokens dev) t := by
  apply wp_seq (removeAccessToken_spec stands settled)
  grind [removeRefreshToken_spec]

theorem removeDevice_spec (settled : Settled events) : tokenProtocol.wp job (fun _ later => At job none
      (events ++ [.acquired dev.userId, .clearedAccess dev, .clearedRefresh dev]) later) (removeDevice dev) t := by
  apply wp_seq (removeTokens_spec stands settled)
  intro _ later _ held
  apply wp_write_last At.stable held
  intro last _ holding
  refine ⟨.setMetadata dev false, trivial, ?_⟩
  refine At.returns (At.after holding rfl) fun _ final => ?_
  simpa using final

end

section

variable (stands : At job none [] t)
include stands

theorem rotate_spec : tokenProtocol.wp job (fun _ _ => True) (rotate cfg dev presented) t := by
  apply wp_seq (generate_spec stands)
  rintro _ later _ ⟨⟨secret, rfl⟩, held⟩
  apply wp_seq (generateAccessToken_spec held)
  rintro ⟨accessToken, expiresIn⟩ last _ ⟨unmarked, holding⟩
  have ready : Ready [.drew (.refresh secret), .drew accessToken] dev (some presented) accessToken
      (some (.refresh secret)) := ⟨unmarked, by simp, by simp [Token.isRefreshToken], by simp, by simp⟩
  apply wp_seq (setAccessToken_spec holding (settled_of_forall (by simp)) ready)
  grind [At.returns]

theorem reissue_spec {current : Token} :
    tokenProtocol.wp job (fun _ _ => True) (reissue cfg dev presented current) t := by
  apply wp_seq (generateAccessToken_spec stands)
  rintro ⟨accessToken, expiresIn⟩ last _ ⟨unmarked, holding⟩
  have ready : Ready [.drew accessToken] dev (some presented) accessToken none :=
    ⟨unmarked, by simp, by simp, by simp, by simp⟩
  apply wp_seq (setAccessToken_spec holding (settled_of_forall (by simp)) ready)
  grind [At.returns]

theorem expire_spec : tokenProtocol.wp job (fun _ _ => True) (expire cfg dev) t := by
  unfold expire logoutExpired
  split
  · apply wp_seq (removeDevice_spec stands (settled_of_forall (by simp)))
    grind [At.returns]
  · apply wp_seq (removeRefreshToken_spec stands)
    grind [At.returns]

theorem reuse_spec : tokenProtocol.wp job (fun _ _ => True) (reuse cfg dev) t := by
  unfold reuse revokeReused
  split
  · apply wp_seq (removeDevice_spec stands (settled_of_forall (by simp)))
    grind [At.returns]
  · exact stands.returns fun _ _ => trivial

theorem classifySpent_spec :
    tokenProtocol.wp job (fun _ later => At job none [] later) (classifySpent cfg presented) t := by
  unfold classifySpent
  grind [At.returns, wp_read, At.stable]

theorem classifyRefreshToken_spec : tokenProtocol.wp job (fun _ later => At job none [] later)
      (classifyRefreshToken cfg presented) t := by
  unfold classifyRefreshToken
  split
  · apply wp_read At.stable stands
    grind [wp_read, At.stable, At.returns, classifySpent_spec]
  · exact stands.returns fun _ final => final

theorem refreshTokenRoute_spec : tokenProtocol.wp job (fun _ _ => True) (refreshTokenRoute cfg presented) t := by
  unfold refreshTokenRoute
  split
  · apply wp_seq (classifyRefreshToken_spec stands)
    intro classified later _ held
    split
    · apply wp_read At.stable held
      grind [expire_spec, rotate_spec]
    · exact reissue_spec held
    · exact reuse_spec held
    · exact held.returns fun _ _ => trivial
  · exact stands.returns fun _ _ => trivial

end

theorem loginRefreshToken_spec {expiresIn : Option ℕ} (stands : At job none events t) :
    tokenProtocol.wp job (fun refresh later => ∃ tail, At job none (events ++ tail) later ∧
      (∀ token ∈ refresh, token.isRefreshToken = true ∧ .drew token ∈ tail) ∧
      ∀ event ∈ tail, ∃ token, event = .drew token) (loginRefreshToken expiresIn) t := by
  cases expiresIn with
  | none =>
    refine stands.returns fun _ final => ⟨[], ?_, nofun, nofun⟩
    rwa [List.append_nil]
  | some expiresIn =>
    apply wp_seq (generate_spec stands)
    rintro _ later _ ⟨⟨secret, rfl⟩, held⟩
    refine held.returns fun _ final => ⟨_, final, ?_, by simp⟩
    rintro _ ⟨rfl⟩
    exact ⟨rfl, List.mem_singleton_self _⟩

variable {userId : UserId}

theorem loginDevice_spec (stands : At job none events t) :
    tokenProtocol.wp job (fun _ later => At job none events later) (loginDevice userId deviceId) t := by
  cases deviceId with
  | some deviceId =>
    apply wp_read At.stable stands
    grind [At.returns]
  | none =>
    apply wp_step At.stable stands
    intro later drawn reported store _ held taken
    split at taken
    · cases taken
    · cases taken
      rw [World.after_nil]
      exact ⟨.quiet, trivial, held.returns fun _ final => final⟩

theorem ensureDevice_spec {accessToken : Token}
    {existing : Bool} (stands : At job none events t) (settled : Settled events)
    (ready : Ready events dev none accessToken none) :
    tokenProtocol.wp job (fun _ later => ∃ tail, At job none (events ++ tail) later ∧ Settled (events ++ tail) ∧
      ∀ event ∈ tail, event = .acquired dev.userId ∨ Writes dev none accessToken none event)
      (ensureDevice cfg dev accessToken existing) t := by
  cases existing with
  | true =>
    refine stands.returns fun _ final => ⟨[], ?_, ?_, nofun⟩
    · rwa [List.append_nil]
    · rwa [List.append_nil]
  | false =>
    apply wp_write At.stable stands
    intro later _ held
    refine ⟨.setMetadata dev true, trivial, ?_⟩
    have created : At job none events (later.after job [] (later.store.setMetadata dev true)) := by
      have appended := @At.after job _ _ _ [] (later.store.setMetadata dev true) held rfl
      rwa [List.append_nil] at appended
    refine wp_mono (setAccessToken_spec created settled ready) ?_
    grind [Finished.settled]

theorem loginRoute_spec {refreshToken : Bool} (stands : At job none [] t) : tokenProtocol.wp job (fun _ _ => True)
      (loginRoute cfg userId deviceId refreshToken) t := by
  apply wp_seq (generateAccessToken_spec stands)
  rintro ⟨accessToken, expiresIn⟩ later _ ⟨unmarked, held⟩
  apply wp_seq (loginRefreshToken_spec held)
  rintro refresh middle _ ⟨drawn, holding, marked, draws⟩
  apply wp_seq (loginDevice_spec holding)
  rintro ⟨deviceId, existing⟩ last _ standing
  have ready : Ready ([] ++ [.drew accessToken] ++ drawn) ⟨userId, deviceId⟩ none accessToken refresh := by
    refine ⟨unmarked, by simp, ?_, ?_, ?_⟩
    · grind
    · grind
    · grind
  have plain : Ready ([] ++ [.drew accessToken] ++ drawn) ⟨userId, deviceId⟩ none accessToken none :=
    ⟨ready.unmarked, ready.drew, nofun, ready.first, ready.again⟩
  have idle : Settled ([] ++ [.drew accessToken] ++ drawn) := by
    grind [settled_of_forall]
  apply wp_seq (ensureDevice_spec standing idle plain)
  rintro created next _ ⟨tail, stood, settled, writes⟩
  cases created with
  | error error => exact stood.returns fun _ _ => trivial
  | ok =>
    have again : Ready ([] ++ [.drew accessToken] ++ drawn ++ tail) ⟨userId, deviceId⟩ none accessToken refresh := by
      apply ready.append
      · intro dev presented token mem
        rcases writes _ mem with impossible | impossible
        · cases impossible
        · exact nomatch impossible.2.2
      · intro dev presented token mem
        rcases writes _ mem with impossible | same
        · cases impossible
        · exact same
    apply wp_seq (setAccessToken_spec stood settled again)
    grind [At.returns]

theorem removal_spec {call : Call Unit} (stands : At job none [] t)
    (spec : ∀ {events later}, At job none events later → Settled events → tokenProtocol.wp job
      (fun _ last => At job none (events ++ [.acquired dev.userId, .clearedAccess dev, .clearedRefresh dev]) last)
      call later) : tokenProtocol.wp job (fun _ later => .clearedAccess dev ∈ later.own job)
      (removal dev call) t := by
  unfold removal
  apply wp_observe At.stable stands
  intro later _ held _
  refine ⟨.removing dev held.own, trivial, ?_⟩
  apply wp_seq (spec (At.after held rfl) (settled_of_forall (by simp)))
  grind [At.returns, At.own]

def Over (job : ℕ) (request : Request) (_ : Option (Except Error TokenResponse)) (tables : Tables) : Prop :=
  ∀ device, request = .removeTokens device ∨ request = .removeDevice device → .clearedAccess device ∈ tables.own job

theorem serve_spec (cfg : AuthConfig) (job : ℕ) (req : Request) (t : Tables)
    (first : ∀ entry ∈ t.trace, entry.1 ≠ job) : tokenProtocol.wp job (Over job req) (serve cfg req) t := by
  have stands : At job none [] t := by
    refine ⟨List.eq_nil_iff_forall_not_mem.mpr ?_, nofun⟩
    grind [World.mem_own]
  cases req with
  | refresh presented =>
    refine wp_seq (refreshTokenRoute_spec stands) fun _ _ _ _ => wp_pure fun _ => ?_
    rintro _ (⟨⟨⟩⟩ | ⟨⟨⟩⟩)
  | login userId deviceId refreshToken =>
    refine wp_seq (loginRoute_spec stands) fun _ _ _ _ => wp_pure fun _ => ?_
    rintro _ (⟨⟨⟩⟩ | ⟨⟨⟩⟩)
  | removeTokens dev =>
    refine wp_mono (removal_spec stands removeTokens_spec) ?_
    rintro _ later cleared _ (⟨⟨⟩⟩ | ⟨⟨⟩⟩)
    exact cleared
  | removeDevice dev =>
    refine wp_mono (removal_spec stands removeDevice_spec) ?_
    rintro _ later cleared _ (⟨⟨⟩⟩ | ⟨⟨⟩⟩)
    exact cleared
  | elapse seconds =>
    apply wp_write At.stable stands
    intro later _ held
    refine ⟨.elapse seconds, trivial, ?_⟩
    refine At.returns (At.after held rfl) fun _ _ => ?_
    rintro _ (⟨⟨⟩⟩ | ⟨⟨⟩⟩)

end Phantom.Accounts
