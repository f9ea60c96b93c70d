import Phantom.Accounts.Rotation

namespace Phantom.Accounts

open Phantom.Lib Phantom.Matrix Function

def Later (presented : Option Token) (accessToken : Token) (drawn : List Token) : Prop :=
  accessToken ∉ drawn ∧ ∀ token ∈ presented, token ∉ drawn

instance (presented : Option Token) (accessToken : Token) (drawn : List Token) :
    Decidable (Later presented accessToken drawn) :=
  inferInstanceAs (Decidable (accessToken ∉ drawn ∧ ∀ token ∈ presented, token ∉ drawn))

/-- The entry is a removal of the device that has not taken the lock, or that began before the tokens of
    the request were drawn. -/
def Spared (tables : Tables) (device : UserDeviceId) (presented : Option Token) (accessToken : Token)
    (entry : ℕ × Event) : Prop :=
  match entry.2 with
  | .removing device' drawn => device' = device → (entry.1, .acquired device.userId) ∈ tables.trace →
    Later presented accessToken drawn
  | _ => True

instance (tables : Tables) (device : UserDeviceId) (presented : Option Token) (accessToken : Token)
    (entry : ℕ × Event) : Decidable (Spared tables device presented accessToken entry) := by
  rcases entry with ⟨job, event⟩
  cases event <;> dsimp only [Spared] <;> infer_instance

/-- Where `set_access_token` finds the row of the device, no removal of the device that began after the
    tokens of the request were drawn has taken the lock already. -/
def Unraced (tables : Tables) (entry : ℕ × Event) : Prop :=
  match entry.2 with
  | .checked device presented accessToken =>
    ∀ removal ∈ tables.trace, Spared tables device presented accessToken removal
  | _ => True

instance (tables : Tables) (entry : ℕ × Event) : Decidable (Unraced tables entry) := by
  rcases entry with ⟨job, event⟩
  cases event <;> dsimp only [Unraced] <;> infer_instance

section Moves

variable {job : ℕ} {t after : Tables} {entries : List (ℕ × Event)}

theorem Move.locked_cases (move : Move job t after) (grown : after.trace = t.trace ++ entries)
    {user : UserId} {holder : ℕ} (held : after.store.accessTokenLocks user = some holder) :
    t.store.accessTokenLocks user = some holder ∨ holder = job ∧ entries = [(job, .acquired user)] := by
  cases move with
  | acquire user' free settled =>
    change update t.store.accessTokenLocks user' (some job) user = some holder at held
    rcases eq_or_ne user user' with rfl | ne
    · rw [update_self] at held
      exact Or.inr ⟨(Option.some.inj held).symm, (List.append_cancel_left grown).symm⟩
    · grind
  | release user' held' settled =>
    change update t.store.accessTokenLocks user' none user = some holder at held
    grind
  | putRefresh => exact Or.inl (by simpa using held)
  | _ => exact Or.inl held

variable {dev : UserDeviceId} {token : Token}

theorem Move.userdeviceidToken_cases (move : Move job t after) (grown : after.trace = t.trace ++ entries)
    (current : after.store.userdeviceidToken dev = some token) :
    (t.store.userdeviceidToken dev = some token ∧ entries ≠ [(job, .clearedAccess dev)] ∧
      ∀ presented token', entries ≠ [(job, .storedAccess dev presented token')]) ∨
      ∃ presented, entries = [(job, .storedAccess dev presented token)] := by
  have same : ∀ {reported}, t.trace ++ reported = t.trace ++ entries → entries = reported :=
    fun equal => (List.append_cancel_left equal).symm
  cases move with
  | dropAccess device' held =>
    change update t.store.userdeviceidToken device' none dev = some token at current
    have reported : entries = [(job, .clearedAccess device')] := same grown
    grind
  | putAccess device' presented token' expiresAt held unmarked drew again checked =>
    change update t.store.userdeviceidToken device' (some token') dev = some token at current
    have reported : entries = [(job, .storedAccess device' presented token')] := same grown
    grind
  | quiet =>
    grind
  | elapse | release | setMetadata =>
    have reported : entries = [] := same grown
    exact Or.inl ⟨current, by simp [reported], by simp [reported]⟩
  | draw | acquire | removing | check | rotate | dropRefresh =>
    have reported := same grown
    exact Or.inl ⟨current, by simp [reported], by simp [reported]⟩
  | putRefresh =>
    have reported := same grown
    exact Or.inl ⟨by simpa using current, by simp [reported], by simp [reported]⟩

theorem remove_eq_some {κ β : Type} [DecidableEq κ] {table : κ → Option β} {erased : Option κ} {key : κ}
    {value : β} (found : remove table erased key = some value) : table key = some value ∧ erased ≠ some key := by
  cases erased with
  | none => exact ⟨found, nofun⟩
  | some other =>
    change update table other none key = some value at found
    grind

theorem Move.row (move : Move job t after)
    (row : ∀ {token dev expiresAt}, token.isRefreshToken = false → t.store.tokenUserdeviceid token = some
    (dev, expiresAt) → t.store.userdeviceidToken dev = some token)
    {expiresAt : Option ℕ} (unmarked : token.isRefreshToken = false)
    (found : after.store.tokenUserdeviceid token = some (dev, expiresAt)) :
    after.store.userdeviceidToken dev = some token := by
  have elsewhere : ∀ {device'}, t.store.userdeviceidToken device' ≠ some token →
      t.store.userdeviceidToken dev = some token → dev ≠ device' := by
    rintro device' other current rfl
    exact other current
  cases move with
  | dropAccess device' held =>
    obtain ⟨old, other⟩ := remove_eq_some found
    have current := row unmarked old
    exact (update_of_ne (elsewhere other current) _ _).trans current
  | putAccess device' presented token' expiresAt' held unmarked' drew again checked =>
    change update (remove t.store.tokenUserdeviceid
      (t.store.userdeviceidToken device')) token' (some (device', expiresAt')) token = some (dev, expiresAt) at found
    rcases eq_or_ne token token' with rfl | ne
    · rw [update_self] at found
      cases found
      exact update_self ..
    · rw [update_of_ne ne] at found
      obtain ⟨old, other⟩ := remove_eq_some found
      have current := row unmarked old
      exact (update_of_ne (elsewhere other current) _ _).trans current
  | dropRefresh device' refreshToken spent => exact row unmarked (remove_eq_some found).1
  | putRefresh device' presented token' expiresAt' spent spentAt held marked =>
    rw [World.after_store, Users.putRefresh_tokenUserdeviceid] at found
    grind [World.after_store, Users.putRefresh_userdeviceidToken]
  | _ => exact row unmarked found

end Moves

/-- The row of an access token is there only while the token is the one of its device. -/
structure Accessed (tables : Tables) : Prop extends Issued tables where
  accessDrew : ∀ {job device presented token}, (job, .storedAccess device presented token) ∈ tables.trace →
    (job, .drew token) ∈ tables.trace
  accessSame : ∀ {job device device' presented presented' token token'},
    (job, .storedAccess device presented token) ∈ tables.trace →
    (job, .storedAccess device' presented' token') ∈ tables.trace →
    device = device' ∧ presented = presented' ∧ token = token'
  accessStored : ∀ {device token}, tables.store.userdeviceidToken device = some token →
    ∃ job presented, (job, .storedAccess device presented token) ∈ tables.trace
  row : ∀ {token device expiresAt}, token.isRefreshToken = false →
    tables.store.tokenUserdeviceid token = some (device, expiresAt) →
    tables.store.userdeviceidToken device = some token

theorem Accessed.init : Accessed ⟨Users.init, []⟩ where
  toIssued := Issued.init
  accessDrew := nofun
  accessSame := nofun
  accessStored := nofun
  row := nofun

structure Removals (tables : Tables) : Prop extends Accessed tables where
  holder : ∀ {user job}, tables.store.accessTokenLocks user = some job → (job, .acquired user) ∈ tables.trace
  entered : ∀ {job device}, (job, .clearedAccess device) ∈ tables.trace →
    (job, .acquired device.userId) ∈ tables.trace
  vetted : ∀ {job device presented token removal drawn}, tables.store.accessTokenLocks device.userId = some job →
    .checked device presented token ∈ recent (tables.own job) → (removal, .removing device drawn) ∈ tables.trace →
    (removal, .acquired device.userId) ∈ tables.trace → Later presented token drawn
  cleared : ∀ {removal device drawn job presented token}, (removal, .removing device drawn) ∈ tables.trace →
    (removal, .clearedAccess device) ∈ tables.trace → tables.store.userdeviceidToken device = some token →
    (job, .storedAccess device presented token) ∈ tables.trace → Later presented token drawn

theorem Removals.init : Removals ⟨Users.init, []⟩ where
  toAccessed := Accessed.init
  holder := nofun
  entered := nofun
  vetted := nofun
  cleared := nofun

section Keeps

variable {job : ℕ} {t after : Tables} {entries : List (ℕ × Event)}

theorem Accessed.move (accessed : Accessed t) (move : Move job t after)
    (grown : after.trace = t.trace ++ entries) : Accessed after := by
  have kept : ∀ {entry}, entry ∈ t.trace → entry ∈ after.trace := by
    grind
  have reported : ∀ {entry}, entries = [entry] → entry ∈ after.trace := by
    grind
  have issued := accessed.toIssued.move move grown
  have drew : ∀ {job' dev presented token}, (job', .storedAccess dev presented token) ∈ after.trace →
      (job', .drew token) ∈ after.trace := by
    intro job' dev presented token mem
    rcases move.entry_cases grown mem with old | ⟨rfl, _, guarded⟩
    · exact kept (accessed.accessDrew old)
    · exact kept (World.mem_own.mp guarded.1)
  refine ⟨issued, drew, ?_, ?_, ?_⟩
  · intro job' dev device' presented presented' token token' left right
    rcases move.entry_cases grown left with old | ⟨rfl, new, guarded⟩
    · rcases move.entry_cases grown right with old' | ⟨rfl, _, guarded⟩
      · exact accessed.accessSame old old'
      · exact guarded.2.1 _ _ _ (World.mem_own.mpr old)
    · rcases move.entry_cases grown right with old' | ⟨_, new', _⟩
      · obtain ⟨sameDevice, samePresented, sameToken⟩ := guarded.2.1 _ _ _ (World.mem_own.mpr old')
        grind
      · grind
  · intro dev token current
    rcases move.userdeviceidToken_cases grown current with ⟨old, _⟩ | ⟨presented, new⟩
    · grind [Accessed.accessStored]
    · exact ⟨job, presented, reported new⟩
  · grind [Move.row, Accessed.row]

variable {dev : UserDeviceId}

theorem Move.recent_checked (move : Move job t after) (grown : after.trace = t.trace ++ entries) {job' : ℕ}
    {presented : Option Token} {token : Token} (checked : .checked dev presented token ∈ recent (after.own job')) :
    .checked dev presented token ∈ recent (t.own job') ∨
      job' = job ∧ entries = [(job, .checked dev presented token)] := by
  rcases eq_or_ne job job' with rfl | ne
  · rcases move.reported grown with rfl | ⟨event, rfl, -⟩
    · grind [World.own]
    · rw [World.own_of_trace grown] at checked
      by_cases acquired : event.isAcquired = true
      · cases event with
        | acquired user =>
          grind [recent_section]
        | _ => cases acquired
      · grind [recent_concat]
  · grind [Move.own_other]

theorem Move.removal_cases (move : Move job t after) (grown : after.trace = t.trace ++ entries) {removal : ℕ}
    {drawn : List Token} {event : Event} (removing : (removal, .removing dev drawn) ∈ after.trace)
    (followed : (removal, event) ∈ after.trace) (other : ∀ dev drawn, event ≠ .removing dev drawn) :
    (removal, .removing dev drawn) ∈ t.trace := by
  rcases move.entry_cases grown removing with old | ⟨rfl, new, first, -⟩
  · exact old
  · rcases move.entry_cases grown followed with old | ⟨-, new', -⟩
    · have mem := World.mem_own.mpr old
      rw [first] at mem
      cases mem
    · grind

theorem Removals.move (removals : Removals t) (move : Move job t after) (grown : after.trace = t.trace ++ entries)
    (allowed : ∀ entry ∈ entries, Unraced t entry) : Removals after := by
  have kept : ∀ {entry}, entry ∈ t.trace → entry ∈ after.trace := by
    grind
  have reported : ∀ {entry}, entries = [entry] → entry ∈ after.trace := by
    grind
  refine ⟨removals.toAccessed.move move grown, ?_, ?_, ?_, ?_⟩
  · intro user holder held
    rcases move.locked_cases grown held with old | ⟨rfl, new⟩
    · exact kept (removals.holder old)
    · exact reported new
  · intro job' dev mem
    rcases move.entry_cases grown mem with old | ⟨rfl, _, held⟩
    · exact kept (removals.entered old)
    · exact kept (removals.holder held)
  · intro job' dev presented token removal drawn held checked removing acquired
    have removingBefore := move.removal_cases grown removing acquired (by simp)
    rcases move.recent_checked grown checked with checkedBefore | ⟨rfl, new⟩
    · have heldBefore : t.store.accessTokenLocks dev.userId = some job' := by
        rcases move.locked_cases grown held with old | ⟨rfl, new⟩
        · exact old
        · grind [recent_section, World.own]
      rcases move.entry_cases grown acquired with acquiredBefore | ⟨rfl, -, free⟩
      · grind [Removals.vetted]
      · have unheld : t.store.accessTokenLocks dev.userId = none := free
        rw [heldBefore] at unheld
        cases unheld
    · rcases move.entry_cases grown acquired with acquiredBefore | ⟨rfl, new', -⟩
      · have spared : Unraced t (job', .checked dev presented token) :=
          allowed _ (by rw [new]; exact List.mem_singleton_self _)
        exact spared _ removingBefore rfl acquiredBefore
      · rw [new] at new'
        cases new'
  · intro removal dev drawn job' presented token removing cleared current stored
    have removingBefore := move.removal_cases grown removing cleared (by simp)
    rcases move.userdeviceidToken_cases grown current with ⟨currentBefore, uncleared, unstored⟩ |
      ⟨presented', new⟩
    · rcases move.entry_cases grown cleared with clearedBefore | ⟨rfl, new, -⟩
      · rcases move.entry_cases grown stored with storedBefore | ⟨rfl, new, -⟩
        · grind [Removals.cleared]
        · exact absurd new (unstored _ _)
      · exact absurd new uncleared
    · have guarded : Guard job t after (.storedAccess dev presented' token) := by
        grind [Move.reported]
      obtain ⟨drew, again, checked, held⟩ := guarded
      have same : presented = presented' := by
        rcases move.entry_cases grown stored with old | ⟨-, new', -⟩
        · have sameJob := removals.drewOnce (removals.accessDrew old) (World.mem_own.mp drew)
          grind [World.mem_own]
        · rw [new] at new'
          cases new'
          rfl
      grind [Removals.vetted, Removals.entered]

end Keeps

theorem lookup_eq_user {appservice : Token → Bool} {users : Users} {token : Token} {dev : UserDeviceId}
    (found : lookup appservice users (some token) = .user dev) :
    token.isRefreshToken = false ∧ ∃ expiresAt, users.tokenUserdeviceid token = some (dev, expiresAt) := by
  simp only [lookup] at found
  split at found
  · cases found
  · split at found
    · cases found
    · rename_i unmarked
      refine ⟨by simpa using unmarked, ?_⟩
      split at found
      · rename_i row
        split at found
        · cases found
        · cases found
          exact ⟨_, row⟩
      · rename_i row
        cases found
        exact ⟨_, row⟩
      · cases found

/-- In every interleaving in which no request stores tokens behind a removal, the removal is final: once
    it has returned, no access token of the device that had been drawn when it began, or that was stored
    for a refresh token drawn by then, is resolved to the device. -/
theorem removal_final (config : AuthConfig) {turns : List (Turn Request Draw)} {pool : Sessions}
    (run : Run (Pool.Step (serve config) Unraced) (Pool.idle Users.init) turns pool)
    {removal : ℕ} {device : UserDeviceId} {request : Request}
    (removes : request = .removeTokens device ∨ request = .removeDevice device)
    {result : Option (Except Error TokenResponse)} (ended : pool.returned removal = some (request, result))
    {drawn : List Token} (began : (removal, .removing device drawn) ∈ pool.world.trace)
    {token : Token} (earlier : token ∈ drawn ∨ ∃ job presented,
      (job, .storedAccess device (some presented) token) ∈ pool.world.trace ∧ presented ∈ drawn)
    (appservice : Token → Bool) : lookup appservice pool.world.store (some token) ≠ .user device := by
  have start : ∀ job request tables, tokenProtocol.Inv tables → (∀ entry ∈ tables.trace, entry.1 ≠ job) →
      tokenProtocol.wp job (Over job request) (serve config request) tables :=
    fun job request tables _ first => serve_spec config job request tables first
  obtain ⟨sound, removals⟩ := Protocol.Sound.invariant (fun _ _ _ => trivial) start Removals
    (fun job tables after entries _ holds move grown allowed => holds.move move grown allowed) run
    (Protocol.Sound.idle trivial) Removals.init
  have cleared := World.mem_own.mp (sound.returned ended device removes)
  intro found
  obtain ⟨unmarked, expiresAt, row⟩ := lookup_eq_user found
  have current := removals.row unmarked row
  obtain ⟨storer, presented', stored'⟩ := removals.accessStored current
  rcases earlier with before | ⟨job, presented, stored, before⟩
  · exact (removals.cleared began cleared current stored').1 before
  · exact (removals.cleared began cleared current stored).2 presented rfl before

namespace Sample

/-- The removal drops the access token, then the refresh that had found its token current stores a new
    one, then the removal goes on. -/
def racedRemoval : List (Turn Request Draw) :=
  loggedIn ++ [.arrive (.refresh (.refresh 1)), .arrive (.removeDevice device)] ++
  steps 1 2 5 ++ steps 2 0 5 ++ steps 1 2 13 ++ steps 2 0 4

theorem token_outlives_removal : ∃ pool : Sessions,
      Run (Pool.Step (serve config) fun _ _ => True) (Pool.idle Users.init) racedRemoval pool ∧
      (∃ result, pool.returned 2 = some (.removeDevice device, result)) ∧
      (2, .removing device [.plain 2, .refresh 2, .refresh 1, .plain 1]) ∈ pool.world.trace ∧
      (1, .storedAccess device (some (.refresh 1)) (.plain 2)) ∈ pool.world.trace ∧
      lookup (fun _ => false) pool.world.store (some (.plain 2)) = .user device := by
  apply Pool.exists_run_of_play (fun pool => pool.returned 2 = some (.removeDevice device, none) ∧
    (2, .removing device [.plain 2, .refresh 2, .refresh 1, .plain 1]) ∈ pool.world.trace ∧
    (1, .storedAccess device (some (.refresh 1)) (.plain 2)) ∈ pool.world.trace ∧
    lookup (fun _ => false) pool.world.store (some (.plain 2)) = .user device) (by decide +kernel)
  rintro pool run ⟨ended, found⟩
  exact ⟨⟨_, ended⟩, found⟩

def orderedRemoval : List (Turn Request Draw) :=
  loggedIn ++ [.arrive (.refresh (.refresh 1)), .arrive (.removeDevice device)] ++
  steps 1 2 5 ++ steps 2 0 1 ++ steps 1 2 13 ++ steps 2 0 8

theorem removal_final_refreshed : ∃ pool : Sessions,
      Run (Pool.Step (serve config) Unraced) (Pool.idle Users.init) orderedRemoval pool ∧
      (1, .storedAccess device (some (.refresh 1)) (.plain 2)) ∈ pool.world.trace ∧
      lookup (fun _ => false) pool.world.store (some (.plain 2)) ≠ .user device := by
  apply Pool.exists_run_of_play (fun pool => pool.returned 2 = some (.removeDevice device, none) ∧
    (2, .removing device [.plain 2, .refresh 2, .refresh 1, .plain 1]) ∈ pool.world.trace ∧
    (1, .storedAccess device (some (.refresh 1)) (.plain 2)) ∈ pool.world.trace) (by decide +kernel)
  rintro pool run ⟨ended, began, stored⟩
  exact ⟨stored, removal_final config run (Or.inr rfl) ended began (Or.inr ⟨1, .refresh 1, stored, by decide⟩) _⟩

end Sample

end Phantom.Accounts
