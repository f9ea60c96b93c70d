import Phantom.Accounts.Moves

namespace Phantom.Accounts

open Phantom.Lib Phantom.Matrix Phantom.Lib.Protocol

variable {job : ℕ} {lock : Option UserId}
variable {events : List Event} {t : Tables} {α : Type}
variable {tail : List Event} {device dev : UserDeviceId} {cfg : AuthConfig} {presented refreshToken : Option Token}
variable {expiresIn : Option ℕ} {accessToken : Token}

structure Finished (tail : List Event) : Prop where
  inside : ∀ event ∈ tail, event.isAcquired = false
  cleared : ∀ device presented, .rotating device presented ∈ tail → .clearedRefresh device ∈ tail

variable {user : UserId}

theorem Finished.settled (finished : Finished tail) : Settled (events ++ .acquired user :: tail) := by
  intro dev presented mem
  grind [recent_section, Finished.inside, Finished.cleared]

theorem At.returns {result : α} {Returned : α → Tables → Prop} (stands : At job lock events t)
    (returned : ∀ later, At job lock events later → Returned result later) :
    tokenProtocol.wp job Returned (pure result : Call α) t := wp_returns At.stable stands returned

theorem At.stable_tail {Fits : List Event → Prop} {shape : List Event → List Event} :
    tokenProtocol.Stable job (fun t => ∃ tail, Fits tail ∧ At job lock (shape tail) t) := by
  rintro other events store t ne inv move ⟨tail, fits, stands⟩
  exact ⟨tail, fits, At.stable other events store t ne inv move stands⟩

theorem locked_spec {call : Call α} (Section : α → List Event → Prop) (stands : At job none events t)
    (settled : Settled events) (finished : ∀ result tail, Section result tail → Finished tail)
    (spec : ∀ later, At job (some user) (events ++ [.acquired user]) later →
    tokenProtocol.wp job (fun result last => ∃ tail, Section result tail ∧ At job (some user)
      (events ++ .acquired user :: tail) last) call later) :
    tokenProtocol.wp job (fun result last => ∃ tail, Section result tail ∧
      At job none (events ++ .acquired user :: tail) last) (locked user call) t := by
  refine wp_section At.stable stands ?_ (fun later _ => spec later) (fun _ => At.stable_tail) ?_
    (fun _ => At.stable_tail)
  · intro later drawn reported store _ held taken
    split at taken
    · rename_i free
      cases taken
      refine ⟨.acquire user free (by rwa [held.own]), trivial, by rw [World.own_after, held.own], ?_⟩
      rintro other ⟨rfl⟩
      exact Function.update_self ..
    · cases taken
  · rintro result last _ ⟨tail, section', holding⟩
    refine ⟨.release user (holding.held user rfl) ?_, trivial, tail, section', ?_, nofun⟩
    · rw [holding.own]
      exact (finished result tail section').settled
    · rw [World.own_after, holding.own, List.append_nil]

theorem removeAccessToken_spec (stands : At job none events t) (settled : Settled events) :
    tokenProtocol.wp job (fun _ later => At job none (events ++ [.acquired dev.userId, .clearedAccess dev]) later)
      (removeAccessToken dev) t := by
  refine wp_mono (locked_spec (fun _ tail => tail = [.clearedAccess dev]) stands settled ?_ ?_) ?_
  · rintro _ _ rfl
    exact ⟨by simp [Event.isAcquired], by simp⟩
  · intro later entered
    apply wp_read At.stable entered
    intro middle _ held
    apply wp_write_last At.stable_token ⟨held, rfl⟩
    rintro last - ⟨holding, same⟩
    rw [← same]
    refine ⟨.dropAccess dev (holding.held _ rfl), trivial, ?_⟩
    refine At.returns (At.after holding rfl) ?_
    grind
  · rintro _ later ⟨_, rfl, stood⟩
    exact stood

theorem removeRefreshToken_spec (stands : At job lock events t) : tokenProtocol.wp job
      (fun _ later => At job lock (events ++ [.clearedRefresh dev]) later) (removeRefreshToken dev) t := by
  apply wp_read At.stable stands
  intro later _ held
  apply wp_read At.stable held
  intro middle _ holding
  apply wp_write_last At.stable holding
  intro last _ stood
  refine ⟨.dropRefresh dev _ _, trivial, ?_⟩
  exact At.returns (At.after stood rfl) fun _ final => final

theorem priorExpiresAt_spec (stands : At job lock events t) :
    tokenProtocol.wp job (fun _ later => At job lock events later) (priorExpiresAt cfg dev) t := by
  unfold priorExpiresAt
  split
  · apply wp_read At.stable stands
    intro later _ held
    split
    · apply wp_read At.stable held
      grind [At.returns]
    · exact held.returns fun _ final => final
  · exact stands.returns fun _ final => final

def Rotated (device : UserDeviceId) (presented : Option Token) (token : Token) (tail : List Event) : Prop :=
  tail = [.rotating device presented, .clearedRefresh device] ∨
  tail = [.rotating device presented, .clearedRefresh device, .storedRefresh device presented token]

variable {token : Token}

theorem setRefreshToken_spec (stands : At job (some dev.userId) events t) (marked : token.isRefreshToken = true)
    (drew : .drew token ∈ events) (first : ∀ dev presented token, .storedRefresh dev presented token ∉ events)
    (uncleared : .clearedRefresh dev ∉ recent events) :
    tokenProtocol.wp job (fun _ later => ∃ tail, Rotated dev presented token tail ∧
      At job (some dev.userId) (events ++ tail) later) (setRefreshToken cfg dev presented token) t := by
  apply wp_seq (priorExpiresAt_spec stands)
  intro prior later _ held
  apply wp_observe At.stable held
  intro reading _ holding _
  refine ⟨.rotate dev presented (holding.held _ rfl) (by rwa [holding.own]), trivial, ?_⟩
  apply wp_seq (removeRefreshToken_spec (At.after holding rfl))
  intro _ cleared _ standing
  rw [List.append_assoc, List.singleton_append] at standing
  apply wp_read At.stable standing
  intro clock _ stood
  split
  · exact stood.returns fun _ final => ⟨_, Or.inl rfl, final⟩
  · apply wp_read At.stable stood
    intro spending _ ready
    apply wp_write At.stable ready
    intro last _ writing
    have since : .rotating dev presented ∈ recent (last.own job) := by
      rw [writing.own, recent_append (by simp [Event.isAcquired])]
      simp
    have unstored : ∀ dev presented token, .storedRefresh dev presented token ∉ last.own job := by
      grind [At.own]
    have drawn : .drew token ∈ last.own job := by
      rw [writing.own]
      exact List.mem_append_left _ drew
    refine ⟨.putRefresh dev presented token _ _ _ (writing.held _ rfl) marked drawn unstored since, trivial, ?_⟩
    refine At.returns (At.after writing (by simp)) fun _ final => ⟨_, Or.inr rfl, ?_⟩
    simpa using final

theorem replaceAccessToken_spec (stands : At job (some dev.userId) events t)
    (unmarked : token.isRefreshToken = false) (drew : .drew token ∈ events)
    (again : ∀ device' presented' token', .storedAccess device' presented' token' ∈ events → device' = dev ∧
    presented' = presented ∧ token' = token)
    (checked : .checked dev presented token ∈ recent events) :
    tokenProtocol.wp job (fun _ later => ∃ tail, (tail = [] ∨ tail = [.storedAccess dev presented token]) ∧
      At job (some dev.userId) (events ++ tail) later) (replaceAccessToken dev presented token expiresIn) t := by
  apply wp_read At.stable stands
  intro clock _ held
  split
  · grind [At.returns]
  · apply wp_read At.stable held
    intro reading _ holding
    apply wp_write At.stable_token ⟨holding, rfl⟩
    rintro last - ⟨writing, same⟩
    rw [← same]
    refine ⟨.putAccess dev presented token _ (writing.held _ rfl) unmarked ?_ ?_ ?_, trivial, ?_⟩
    · rwa [writing.own]
    · rwa [writing.own]
    · rwa [writing.own]
    · exact At.returns (At.after writing rfl) fun _ final => ⟨_, Or.inr rfl, final⟩

def Writes (device : UserDeviceId) (presented : Option Token) (accessToken : Token)
    (refreshToken : Option Token) : Event → Prop
  | .checked _ _ _ | .rotating _ _ | .clearedRefresh _ => True
  | .storedRefresh device' presented' token =>
    device' = device ∧ presented' = presented ∧ refreshToken = some token
  | .storedAccess device' presented' token =>
    device' = device ∧ presented' = presented ∧ token = accessToken
  | _ => False

theorem Rotated.writes (rotated : Rotated dev presented token tail) :
    ∀ event ∈ tail, Writes dev presented accessToken (some token) event := by
  rcases rotated with rfl | rfl
  · simp [Writes]
  · simp [Writes]

theorem Rotated.finished (rotated : Rotated dev presented token tail) : Finished tail := by
  rcases rotated with rfl | rfl
  · exact ⟨by simp [Event.isAcquired], by simp⟩
  · exact ⟨by simp [Event.isAcquired], by simp⟩

theorem Finished.append {front : List Event} (left : Finished front) (right : Finished tail) :
    Finished (front ++ tail) := by
  refine ⟨?_, ?_⟩
  · grind [Finished.inside]
  · grind [Finished.cleared]

theorem replaceRefreshToken_spec (accessToken : Token) (stands : At job (some dev.userId) events t)
    (marked : ∀ token ∈ refreshToken, token.isRefreshToken = true ∧ .drew token ∈ events)
    (first : ∀ dev presented token, .storedRefresh dev presented token ∉ events)
    (uncleared : .clearedRefresh dev ∉ recent events) : tokenProtocol.wp job (fun _ later => ∃ tail, (Finished tail ∧
      (∀ event ∈ tail, Writes dev presented accessToken refreshToken event) ∧
      ∀ dev presented token, .storedAccess dev presented token ∉ tail) ∧
      At job (some dev.userId) (events ++ tail) later) (replaceRefreshToken cfg dev presented refreshToken) t := by
  cases refreshToken with
  | none =>
    refine stands.returns fun _ final => ⟨[], ⟨⟨nofun, nofun⟩, nofun, nofun⟩, ?_⟩
    rwa [List.append_nil]
  | some token =>
    obtain ⟨isMarked, drew⟩ := marked token rfl
    refine wp_mono (setRefreshToken_spec stands isMarked drew first uncleared) ?_
    rintro _ later ⟨tail, rotated, stood⟩
    refine ⟨tail, ⟨rotated.finished, rotated.writes, ?_⟩, stood⟩
    rcases rotated with rfl | rfl
    · simp
    · simp

structure Ready (events : List Event) (device : UserDeviceId) (presented : Option Token)
    (accessToken : Token) (refreshToken : Option Token) : Prop where
  unmarked : accessToken.isRefreshToken = false
  drew : .drew accessToken ∈ events
  marked : ∀ token ∈ refreshToken, token.isRefreshToken = true ∧ .drew token ∈ events
  first : ∀ device presented token, .storedRefresh device presented token ∉ events
  again : ∀ device' presented' token', .storedAccess device' presented' token' ∈ events →
    device' = device ∧ presented' = presented ∧ token' = accessToken

theorem Ready.append (ready : Ready events dev presented accessToken refreshToken)
    (unstored : ∀ dev presented token, .storedRefresh dev presented token ∉ tail)
    (same : ∀ device' presented' token', .storedAccess device' presented' token' ∈ tail →
      device' = dev ∧ presented' = presented ∧ token' = accessToken) :
    Ready (events ++ tail) dev presented accessToken refreshToken where
  unmarked := ready.unmarked
  drew := List.mem_append_left _ ready.drew
  marked token mem := by
    grind [Ready.marked]
  first device' presented' token' mem := by
    grind [Ready.first]
  again device' presented' token' mem := by
    grind [Ready.again]

theorem replaceTokens_spec (stands : At job (some dev.userId) events t)
    (ready : Ready events dev presented accessToken refreshToken)
    (since : recent events = [.checked dev presented accessToken]) :
    tokenProtocol.wp job (fun _ later => ∃ tail, (Finished tail ∧
      ∀ event ∈ tail, Writes dev presented accessToken refreshToken event) ∧
      At job (some dev.userId) (events ++ tail) later)
      (replaceTokens cfg dev presented accessToken expiresIn refreshToken) t := by
  apply wp_seq (replaceRefreshToken_spec accessToken stands ready.marked ready.first (by simp [since]))
  rintro replaced later _ ⟨front, ⟨finished, writes, unstored⟩, standing⟩
  cases replaced with
  | error error => grind [At.returns]
  | ok =>
    have again : ∀ device' presented' token', .storedAccess device' presented' token' ∈ events ++ front →
        device' = dev ∧ presented' = presented ∧ token' = accessToken := by
      grind [Ready.again]
    have checked : .checked dev presented accessToken ∈ recent (events ++ front) := by
      rw [recent_append finished.inside, since]
      simp
    refine wp_mono (replaceAccessToken_spec standing ready.unmarked
      (List.mem_append_left _ ready.drew) again checked) ?_
    rintro _ last ⟨tail, rfl | rfl, stood⟩
    · grind
    · refine ⟨front ++ [.storedAccess dev presented accessToken],
        ⟨finished.append ⟨by simp [Event.isAcquired], by simp⟩, ?_⟩, by simpa using stood⟩
      intro event mem
      rcases List.mem_append.mp mem with mem | mem
      · exact writes event mem
      · rw [List.mem_singleton.mp mem]
        exact ⟨rfl, rfl, rfl⟩

theorem setAccessToken_spec (stands : At job none events t) (settled : Settled events)
    (ready : Ready events dev presented accessToken refreshToken) :
    tokenProtocol.wp job (fun _ later => ∃ tail, (Finished tail ∧
      ∀ event ∈ tail, Writes dev presented accessToken refreshToken event) ∧
      At job none (events ++ .acquired dev.userId :: tail) later)
      (setAccessToken cfg dev presented accessToken expiresIn refreshToken) t := by
  refine locked_spec (fun _ tail => Finished tail ∧
    ∀ event ∈ tail, Writes dev presented accessToken refreshToken event) stands settled ?_ ?_
  · exact fun _ _ section' => section'.1
  · intro entering entered
    apply wp_observe At.stable entered
    intro checking _ held _
    cases checking.store.userdeviceidMetadata dev with
    | false =>
      simp only [Bool.false_eq_true, if_false, World.after_nil]
      exact ⟨.quiet, trivial, held.returns fun _ final => ⟨[], ⟨⟨nofun, nofun⟩, nofun⟩, final⟩⟩
    | true =>
      simp only [if_true]
      refine ⟨.check dev presented accessToken (held.held _ rfl), trivial, ?_⟩
      have checked : At job (some dev.userId) (events ++ [.acquired dev.userId, .checked dev presented accessToken])
          (checking.after job [.checked dev presented accessToken] checking.store) := by
        have appended := @At.after job _ _ _ [.checked dev presented accessToken] _ held rfl
        rwa [List.append_assoc] at appended
      have since : recent (events ++ [.acquired dev.userId, .checked dev presented accessToken]) =
          [.checked dev presented accessToken] := recent_section (by simp [Event.isAcquired])
      have more : Ready (events ++ [.acquired dev.userId, .checked dev presented accessToken])
          dev presented accessToken refreshToken := ready.append (by simp) (by simp)
      refine wp_mono (replaceTokens_spec checked more since) ?_
      rintro _ last ⟨tail, ⟨finished, writes⟩, stood⟩
      refine ⟨.checked dev presented accessToken :: tail, ⟨?_, ?_⟩, by simpa using stood⟩
      · have opened : Finished [.checked dev presented accessToken] := ⟨by simp [Event.isAcquired], by simp⟩
        exact opened.append finished
      · intro event mem
        rcases List.mem_cons.mp mem with rfl | mem
        · exact trivial
        · exact writes event mem

end Phantom.Accounts
