import Phantom.Accounts.Served

namespace Phantom.Accounts

open Phantom.Lib Phantom.Matrix Function

/-- A refresh request replaces the refresh token of a device only while the token it presented is still
    the current one. -/
def StillCurrent (tables : Tables) (entry : ℕ × Event) : Prop :=
  match entry.2 with
  | .rotating device (some presented) => tables.store.userdeviceidRefresh device = some presented
  | _ => True

instance (tables : Tables) (entry : ℕ × Event) : Decidable (StillCurrent tables entry) := by
  unfold StillCurrent
  split <;> infer_instance

/-- Each refresh token was drawn by one job, which stores it once, for one device. -/
structure Issued (tables : Tables) : Prop where
  drawn : ∀ {job token}, (job, .drew token) ∈ tables.trace → token ∈ tables.store.drawn
  drewOnce : ∀ {job job' token}, (job, .drew token) ∈ tables.trace → (job', .drew token) ∈ tables.trace → job = job'
  drew : ∀ {job device presented token}, (job, .storedRefresh device presented token) ∈ tables.trace →
    (job, .drew token) ∈ tables.trace
  rotating : ∀ {job device presented token}, (job, .storedRefresh device presented token) ∈ tables.trace →
    (job, .rotating device presented) ∈ tables.trace
  storedOnce : ∀ {job device device' presented presented' token token'},
    (job, .storedRefresh device presented token) ∈ tables.trace →
    (job, .storedRefresh device' presented' token') ∈ tables.trace → device = device' ∧ token = token'
  current : ∀ {device token}, tables.store.userdeviceidRefresh device = some token →
    ∃ job presented, (job, .storedRefresh device presented token) ∈ tables.trace

theorem Issued.init : Issued ⟨Users.init, []⟩ where
  drawn := nofun
  drewOnce := nofun
  drew := nofun
  rotating := nofun
  storedOnce := nofun
  current := nofun

section Moves

variable {job : ℕ} {tables t after : Tables} {entries : List (ℕ × Event)} {token : Token}

theorem Move.drawn_mono (move : Move job t after) (mem : token ∈ t.store.drawn) : token ∈ after.store.drawn := by
  cases move with
  | draw => exact List.mem_cons_of_mem _ mem
  | putRefresh => simpa using mem
  | _ => exact mem

variable {dev : UserDeviceId}

theorem Move.userdeviceidRefresh (move : Move job t after)
    (current : after.store.userdeviceidRefresh dev = some token) : t.store.userdeviceidRefresh dev = some token ∨
      ∃ presented, (job, .storedRefresh dev presented token) ∈ after.trace ∧
        ∀ dev presented token, .storedRefresh dev presented token ∉ t.own job := by
  cases move with
  | dropRefresh device' refreshToken spent =>
    change update t.store.userdeviceidRefresh device' none dev = some token at current
    grind
  | putRefresh device' presented token' expiresAt spent spentAt held marked drew first rotating =>
    rw [World.after_store, Users.putRefresh_userdeviceidRefresh] at current
    rcases eq_or_ne dev device' with rfl | ne
    · rw [update_self] at current
      cases current
      exact Or.inr ⟨presented, by simp, first⟩
    · grind
  | _ => exact Or.inl current

theorem Issued.move (issued : Issued t) (move : Move job t after)
    (grown : after.trace = t.trace ++ entries) : Issued after := by
  have kept : ∀ {entry}, entry ∈ t.trace → entry ∈ after.trace := by
    grind
  constructor
  · intro job' token mem
    rcases move.entry_cases grown mem with old | ⟨rfl, _, fresh⟩
    · exact move.drawn_mono (issued.drawn old)
    · exact fresh.2
  · intro job₁ job₂ token left right
    rcases move.entry_cases grown left with old | ⟨rfl, _, fresh⟩
    · rcases move.entry_cases grown right with old' | ⟨rfl, _, fresh⟩
      · exact issued.drewOnce old old'
      · exact absurd (issued.drawn old) fresh.1
    · rcases move.entry_cases grown right with old' | ⟨rfl, _⟩
      · exact absurd (issued.drawn old') fresh.1
      · rfl
  · intro job' dev presented token mem
    rcases move.entry_cases grown mem with old | ⟨rfl, _, guarded⟩
    · exact kept (issued.drew old)
    · exact kept (World.mem_own.mp guarded.1)
  · intro job' dev presented token mem
    rcases move.entry_cases grown mem with old | ⟨rfl, _, guarded⟩
    · exact kept (issued.rotating old)
    · exact kept (World.mem_own.mp (mem_recent guarded.2.2))
  · intro job' dev device' presented presented' token token' left right
    rcases move.entry_cases grown left with old | ⟨rfl, new, guarded⟩
    · rcases move.entry_cases grown right with old' | ⟨rfl, _, guarded⟩
      · exact issued.storedOnce old old'
      · exact absurd (World.mem_own.mpr old) (guarded.2.1 _ _ _)
    · rcases move.entry_cases grown right with old' | ⟨_, new', _⟩
      · exact absurd (World.mem_own.mpr old') (guarded.2.1 _ _ _)
      · grind
  · intro dev token current
    rcases move.userdeviceidRefresh current with old | ⟨presented, stored, _⟩
    · grind [Issued.current]
    · exact ⟨job, presented, stored⟩

/-- Where the rotation of a token stands: it is under way, or the token is no longer the current one. -/
structure Rotations (tables : Tables) : Prop extends Issued tables where
  left : ∀ {job device token}, (job, .rotating device (some token)) ∈ tables.trace →
    (∃ job' presented, (job', .storedRefresh device presented token) ∈ tables.trace) ∧
    (tables.store.userdeviceidRefresh device ≠ some token ∨ tables.store.accessTokenLocks device.userId = some job ∧
      .rotating device (some token) ∈ recent (tables.own job) ∧ .clearedRefresh device ∉ recent (tables.own job))
  once : ∀ {job job' device device' token}, (job, .rotating device (some token)) ∈ tables.trace →
    (job', .rotating device' (some token)) ∈ tables.trace → job = job'

theorem Rotations.init : Rotations ⟨Users.init, []⟩ where
  toIssued := Issued.init
  left := nofun
  once := nofun

variable {job' : ℕ}

theorem Move.underway {presented : Option Token} (move : Move job t after)
    (held : t.store.accessTokenLocks dev.userId = some job')
    (rotating : .rotating dev presented ∈ recent (t.own job'))
    (uncleared : .clearedRefresh dev ∉ recent (t.own job')) : after.store.userdeviceidRefresh dev = none ∨
      after.store.accessTokenLocks dev.userId = some job' ∧ .rotating dev presented ∈ recent (after.own job') ∧
      .clearedRefresh dev ∉ recent (after.own job') := by
  rcases eq_or_ne job job' with rfl | ne
  · have unsettled : ¬ Settled (t.own job) := fun settled => uncleared (settled dev presented rotating)
    have quietly : ∀ {store : Users}, store.accessTokenLocks = t.store.accessTokenLocks →
        (t.after job [] store).store.accessTokenLocks dev.userId = some job ∧
        .rotating dev presented ∈ recent ((t.after job [] store).own job) ∧
        .clearedRefresh dev ∉ recent ((t.after job [] store).own job) := by
      grind [World.after_store, World.own_after]
    have goesOn : ∀ {event : Event} {store : Users}, event.isAcquired = false →
        event ≠ .clearedRefresh dev → store.accessTokenLocks = t.store.accessTokenLocks →
        (t.after job [event] store).store.accessTokenLocks dev.userId = some job ∧
        .rotating dev presented ∈ recent ((t.after job [event] store).own job) ∧
        .clearedRefresh dev ∉ recent ((t.after job [event] store).own job) := by
      grind [World.after_store, World.own_after, recent_concat]
    cases move with
    | quiet => exact Or.inr ⟨held, rotating, uncleared⟩
    | elapse seconds | setMetadata device' known => exact Or.inr (quietly rfl)
    | acquire user free settled | release user held' settled => exact absurd settled unsettled
    | dropRefresh device' refreshToken spent =>
      rcases eq_or_ne dev device' with rfl | elsewhere
      · exact Or.inl (update_self ..)
      · exact Or.inr (goesOn rfl (by simpa using elsewhere.symm) rfl)
    | putRefresh => exact Or.inr (goesOn rfl (by simp) (by simp))
    | _ => exact Or.inr (goesOn rfl (by simp) rfl)
  · grind [Move.own_other, Move.held_other]

theorem Rotations.holder (rotations : Rotations t) {device' : UserDeviceId}
    (rotating : (job', .rotating device' (some token)) ∈ t.trace)
    (current : t.store.userdeviceidRefresh dev = some token)
    (held : t.store.accessTokenLocks dev.userId = some job) : job' = job := by
  obtain ⟨⟨storer, presented, stored⟩, stands⟩ := rotations.left rotating
  obtain ⟨storer', presented', stored'⟩ := rotations.current current
  have sameJob := rotations.drewOnce (rotations.drew stored) (rotations.drew stored')
  subst sameJob
  obtain ⟨rfl, -⟩ := rotations.storedOnce stored stored'
  grind

theorem Rotations.move (rotations : Rotations t) (move : Move job t after) (grown : after.trace = t.trace ++ entries)
    (allowed : ∀ entry ∈ entries, StillCurrent t entry) : Rotations after := by
  have kept : ∀ {entry}, entry ∈ t.trace → entry ∈ after.trace := by
    grind
  have current : ∀ {dev token}, entries = [(job, .rotating dev (some token))] →
      t.store.userdeviceidRefresh dev = some token := by
    rintro dev token rfl
    exact allowed _ (List.mem_singleton_self _)
  have issued := rotations.toIssued.move move grown
  refine ⟨issued, ?_, ?_⟩
  · intro job' dev token mem
    rcases move.entry_cases grown mem with old | ⟨rfl, new, held, uncleared, same⟩
    · obtain ⟨⟨storer, presented, stored⟩, stands⟩ := rotations.left old
      refine ⟨⟨storer, presented, kept stored⟩, ?_⟩
      rcases stands with changed | ⟨held, rotating, uncleared⟩
      · refine Or.inl (fun again => ?_)
        rcases move.userdeviceidRefresh again with same | ⟨presented', stored', first⟩
        · exact changed same
        · have sameJob := issued.drewOnce (issued.drew (kept stored)) (issued.drew stored')
          grind [World.mem_own]
      · grind [Move.underway]
    · obtain ⟨storer, presented, stored⟩ := rotations.current (current new)
      rw [new] at grown
      rw [same, World.own_of_trace grown, recent_concat rfl]
      grind
  · intro job₁ job₂ dev device' token left right
    rcases move.entry_cases grown left with old | ⟨rfl, new, held, -⟩
    · rcases move.entry_cases grown right with old' | ⟨rfl, new, held, -⟩
      · exact rotations.once old old'
      · exact rotations.holder old (current new) held
    · grind [Rotations.holder]

end Moves

/-- In every interleaving of refreshes, logins and removals in which each rotation still finds the
    presented token current, one refresh token is ever stored on behalf of a presented one. -/
theorem refresh_token_rotates_once (config : AuthConfig) {turns : List (Turn Request Draw)} {pool : Sessions}
    (run : Run (Pool.Step (serve config) StillCurrent) (Pool.idle Users.init) turns pool)
    {job job' : ℕ} {device device' : UserDeviceId} {presented token token' : Token}
    (stored : (job, .storedRefresh device (some presented) token) ∈ pool.world.trace)
    (stored' : (job', .storedRefresh device' (some presented) token') ∈ pool.world.trace) : token = token' := by
  have start : ∀ job request tables, tokenProtocol.Inv tables → (∀ entry ∈ tables.trace, entry.1 ≠ job) →
      tokenProtocol.wp job (Over job request) (serve config request) tables :=
    fun job request tables _ first => serve_spec config job request tables first
  obtain ⟨-, rotations⟩ := Protocol.Sound.invariant (fun _ _ _ => trivial) start Rotations
    (fun job tables after entries _ holds move grown allowed => holds.move move grown allowed) run
    (Protocol.Sound.idle trivial) Rotations.init
  have sameJob := rotations.once (rotations.rotating stored) (rotations.rotating stored')
  subst sameJob
  exact (rotations.storedOnce stored stored').2

namespace Sample

def steps (job secret count : ℕ) : List (Turn Request Draw) :=
  List.replicate count (.take job ⟨secret, device.deviceId⟩)

def loggedIn : List (Turn Request Draw) :=
  [.arrive (.login device.userId (some device.deviceId) true)] ++ steps 0 1 23

/-- Two requests present the token of the login. Both find it current before either takes the lock. -/
def doubleRefresh : List (Turn Request Draw) :=
  loggedIn ++ [.arrive (.refresh (.refresh 1)), .arrive (.refresh (.refresh 1))] ++
  steps 1 2 3 ++ steps 2 3 3 ++ steps 1 2 15 ++ steps 2 3 15

theorem rotated_twice : ∃ pool : Sessions,
      Run (Pool.Step (serve config) fun _ _ => True) (Pool.idle Users.init) doubleRefresh pool ∧
      (1, .storedRefresh device (some (.refresh 1)) (.refresh 2)) ∈ pool.world.trace ∧
      (2, .storedRefresh device (some (.refresh 1)) (.refresh 3)) ∈ pool.world.trace :=
  Pool.exists_run_of_play _ (by decide +kernel) fun _ _ stored => stored

def refreshTwice : List (Turn Request Draw) :=
  loggedIn ++ [.arrive (.refresh (.refresh 1)), .arrive (.refresh (.refresh 1))] ++
  steps 1 2 18 ++ steps 2 3 10

theorem refresh_token_rotates_once_second : ∃ pool : Sessions,
      Run (Pool.Step (serve config) StillCurrent) (Pool.idle Users.init) refreshTwice pool ∧
      (1, .storedRefresh device (some (.refresh 1)) (.refresh 2)) ∈ pool.world.trace ∧
      ∀ job device' token, (job, .storedRefresh device' (some (.refresh 1)) token) ∈ pool.world.trace →
        .refresh 2 = token := by
  apply Pool.exists_run_of_play
    (fun pool => (1, .storedRefresh device (some (.refresh 1)) (.refresh 2)) ∈ pool.world.trace) (by decide +kernel)
  intro pool run stored
  exact ⟨stored, fun job device' token stored' => refresh_token_rotates_once config run stored stored'⟩

end Sample

end Phantom.Accounts
