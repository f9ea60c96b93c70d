import Phantom.Lib.Serial
import Phantom.Accounts.Moves

namespace Phantom.Accounts

open Phantom.Lib Phantom.Matrix Phantom.Lib.Task Function

def Stored (tables : Tables) (device : UserDeviceId) (token : Token) : Prop :=
  ∃ job presented, (job, .storedRefresh device presented token) ∈ tables.trace

/-- The token tables of a server that serves one request at a time. Each device has at most one current
    refresh token and one spent before it, and both are its own. -/
structure Calm (tables : Tables) : Prop where
  unmarked : ∀ {device token}, tables.store.userdeviceidToken device = some token → token.isRefreshToken = false
  current : ∀ {device token}, tables.store.userdeviceidRefresh device = some token →
    token.isRefreshToken = true ∧ token ∈ tables.store.drawn ∧ tables.store.userdeviceidMetadata device = true ∧
    ∃ expiresAt, tables.store.tokenUserdeviceid token = some (device, expiresAt)
  spent : ∀ {token row}, tables.store.spentrefreshUserdeviceid token = some row →
    tables.store.userdeviceidSpentrefresh row.userdeviceid = some token ∧
    tables.store.userdeviceidRefresh row.userdeviceid = some row.successor ∧ token ∈ tables.store.drawn
  owner : ∀ {device token}, Stored tables device token → token ∈ tables.store.drawn ∧
    (∀ device', tables.store.userdeviceidRefresh device' = some token → device' = device) ∧
    ∀ row, tables.store.spentrefreshUserdeviceid token = some row → row.userdeviceid = device

def Alive (users : Users) (token : Token) : Prop :=
  ∀ row, users.tokenUserdeviceid token = some row → hasExpired users.now row.2 = false

/-- The tokens that are older than a request, the devices that it may store a token for, and whether it ends the
    sessions that it finds. -/
structure Purpose where
  old : List Token
  Target : UserDeviceId → Prop
  ends : Prop

def Users.priorExpiresAt (config : AuthConfig) (users : Users) (device : UserDeviceId) : Option ℕ :=
  if config.refreshTokenTtl ≠ 0 ∧ config.refreshTokenIdleOnly = false then
    (users.userdeviceidRefresh device).bind fun token => (users.tokenUserdeviceid token).bind Prod.snd
  else none

/-- Of the tokens that are old, none becomes current again, and one is spent only when it was current
    and alive, unless spent tokens have no grace at all. A token that is new has the deadline of the one before it. -/
structure Tame (config : AuthConfig) (aim : Purpose) (tables after : Tables) : Prop where
  now : tables.store.now ≤ after.store.now
  drawn : ∀ token ∈ tables.store.drawn, token ∈ after.store.drawn
  current : ∀ {device token}, after.store.userdeviceidRefresh device = some token →
    tables.store.userdeviceidRefresh device = some token ∧
      after.store.tokenUserdeviceid token = tables.store.tokenUserdeviceid token ∨
    token ∉ aim.old ∧ aim.Target device ∧ ∃ expiresAt,
      refreshExpiresAt config (tables.store.priorExpiresAt config device) tables.store.now = .ok expiresAt ∧
      after.store.tokenUserdeviceid token = some (device, expiresAt)
  spent : ∀ {token row}, token ∈ aim.old → after.store.spentrefreshUserdeviceid token = some row →
    tables.store.spentrefreshUserdeviceid token = some row ∨
    tables.store.userdeviceidRefresh row.userdeviceid = some token ∧
      (aim.ends → config.refreshTokenReuseGrace = 0 ∨ Alive tables.store token)

structure Kept (tables after : Tables) : Prop where
  current : after.store.userdeviceidRefresh = tables.store.userdeviceidRefresh
  spent : after.store.spentrefreshUserdeviceid = tables.store.spentrefreshUserdeviceid
  spentOf : after.store.userdeviceidSpentrefresh = tables.store.userdeviceidSpentrefresh
  rows : ∀ token, token.isRefreshToken = true →
    after.store.tokenUserdeviceid token = tables.store.tokenUserdeviceid token
  now : after.store.now = tables.store.now
  drawn : ∀ token ∈ tables.store.drawn, token ∈ after.store.drawn
  unmarked : ∀ {device token}, after.store.userdeviceidToken device = some token → token.isRefreshToken = false
  known : ∀ device, tables.store.userdeviceidMetadata device = true → after.store.userdeviceidMetadata device = true
  stored : ∀ {device token}, Stored after device token → Stored tables device token

section Relations

variable {cfg : AuthConfig} {aim : Purpose} {tables t middle after : Tables} {token : Token} {dev : UserDeviceId}

theorem hasExpired_mono {now later : ℕ} {expiresAt : Option ℕ} (passed : now ≤ later)
    (expired : hasExpired now expiresAt = true) : hasExpired later expiresAt = true := by
  cases expiresAt with
  | none => cases expired
  | some expiresAt =>
    grind [hasExpired, timepointHasPassed]

theorem Tame.refl : Tame cfg aim t t :=
  ⟨le_refl _, fun _ mem => mem, fun current => Or.inl ⟨current, rfl⟩, fun _ spent => Or.inl spent⟩

theorem Tame.old_current (tame : Tame cfg aim t after) (isOld : token ∈ aim.old)
    (points : after.store.userdeviceidRefresh dev = some token) : t.store.userdeviceidRefresh dev = some token ∧
      after.store.tokenUserdeviceid token = t.store.tokenUserdeviceid token :=
  (tame.current points).resolve_right fun new => new.1 isOld

theorem Kept.refl (calm : Calm t) : Kept t t :=
  ⟨rfl, rfl, rfl, fun _ _ => rfl, rfl, fun _ mem => mem, calm.unmarked, fun _ known => known, fun stored => stored⟩

theorem Kept.trans (left : Kept t middle) (right : Kept middle after) : Kept t after where
  current := right.current.trans left.current
  spent := right.spent.trans left.spent
  spentOf := right.spentOf.trans left.spentOf
  rows token marked := (right.rows token marked).trans (left.rows token marked)
  now := right.now.trans left.now
  drawn token mem := right.drawn token (left.drawn token mem)
  unmarked := right.unmarked
  known dev known := right.known dev (left.known dev known)
  stored stored := left.stored (right.stored stored)

theorem Kept.calm (kept : Kept t after) (calm : Calm t) : Calm after where
  unmarked := kept.unmarked
  current points := by
    grind [Kept.current, Calm.current, Kept.drawn, Kept.known, Kept.rows]
  spent found := by
    rw [kept.spent] at found
    obtain ⟨points, current, drawn⟩ := calm.spent found
    rw [kept.spentOf, kept.current]
    exact ⟨points, current, kept.drawn _ drawn⟩
  owner stored := by
    obtain ⟨drawn, current, spent⟩ := calm.owner (kept.stored stored)
    rw [kept.current, kept.spent]
    exact ⟨kept.drawn _ drawn, current, spent⟩

theorem Kept.alive (kept : Kept t after) (marked : token.isRefreshToken = true) :
    Alive after.store token ↔ Alive t.store token := by
  unfold Alive
  rw [kept.rows token marked, kept.now]

theorem Kept.prior (kept : Kept t after) (calm : Calm t) :
    after.store.priorExpiresAt cfg dev = t.store.priorExpiresAt cfg dev := by
  unfold Users.priorExpiresAt
  rw [kept.current]
  cases points : t.store.userdeviceidRefresh dev with
  | none => rfl
  | some token =>
    simp only [Option.bind_some]
    rw [kept.rows token (calm.current points).1]

/-- Nothing but what is kept comes before. -/
theorem Kept.before (kept : Kept t middle) (calm : Calm t) (tame : Tame cfg aim middle after) : Tame cfg aim t after where
  now := kept.now.ge.trans tame.now
  drawn token mem := tame.drawn token (kept.drawn token mem)
  current points := by
    refine (tame.current points).imp ?_ ?_
    · rintro ⟨before, row⟩
      rw [kept.current] at before
      exact ⟨before, row.trans (kept.rows _ (calm.current before).1)⟩
    · rw [kept.prior calm, kept.now]
      exact id
  spent isOld found := by
    refine (tame.spent isOld found).imp ?_ ?_
    · rw [kept.spent]
      exact id
    · rintro ⟨before, alive⟩
      rw [kept.current] at before
      exact ⟨before, fun ends => (alive ends).imp_right (kept.alive (calm.current before).1).mp⟩

/-- Nothing but what is kept comes after. -/
theorem Tame.kept (tame : Tame cfg aim t middle) (kept : Kept middle after) (calm : Calm middle) :
    Tame cfg aim t after where
  now := tame.now.trans kept.now.ge
  drawn token mem := kept.drawn token (tame.drawn token mem)
  current points := by
    rw [kept.current] at points
    rw [kept.rows _ (calm.current points).1]
    exact tame.current points
  spent isOld found := by
    rw [kept.spent] at found
    exact tame.spent isOld found

structure Unused (tables : Tables) (token : Token) : Prop where
  marked : token.isRefreshToken = true
  drawn : token ∈ tables.store.drawn
  current : ∀ device, tables.store.userdeviceidRefresh device ≠ some token
  spent : tables.store.spentrefreshUserdeviceid token = none
  unstored : ∀ device, ¬ Stored tables device token

theorem Kept.unused (kept : Kept t after) (unused : Unused t token) : Unused after token where
  marked := unused.marked
  drawn := kept.drawn _ unused.drawn
  current dev := by
    rw [kept.current]
    exact unused.current dev
  spent := by
    rw [kept.spent]
    exact unused.spent
  unstored dev stored := unused.unstored dev (kept.stored stored)

end Relations

section Writes

variable {cfg : AuthConfig} {aim : Purpose} {t : Tables} {job : ℕ}
variable {events : List Event} {device dev device' : UserDeviceId} {token token' : Token} {presented : Option Token}
variable {expiresAt : Option ℕ} {users : Users}

theorem stored_after {store : Users} (others : ∀ dev presented token, .storedRefresh dev presented token ∉ events)
    (stored : Stored (t.after job events store) dev token) : Stored t dev token := by
  obtain ⟨storer, presented, mem⟩ := stored
  rcases List.mem_append.mp mem with before | new
  · exact ⟨storer, presented, before⟩
  · grind

theorem remove_of_ne {κ β : Type} [DecidableEq κ] {table : κ → Option β} {erased : Option κ} {key : κ}
    (other : erased ≠ some key) : remove table erased key = table key := by
  cases erased with
  | none => rfl
  | some erased => exact update_of_ne (fun same => other (by rw [same])) _ _

theorem Calm.unmarked_ne (calm : Calm t)
    (marked : token.isRefreshToken = true) : t.store.userdeviceidToken dev ≠ some token := by
  grind [Calm.unmarked]

theorem Kept.putAccess (calm : Calm t) (plain : token.isRefreshToken = false) :
    Kept t (t.after job [.storedAccess dev presented token]
      (t.store.putAccess dev (t.store.userdeviceidToken dev) token expiresAt)) := by
  refine ⟨rfl, rfl, rfl, ?_, rfl, fun _ mem => mem, ?_, fun _ known => known,
    fun stored => stored_after (by simp) stored⟩
  · intro other marked
    have ne : other ≠ token := by
      rintro rfl
      rw [plain] at marked
      cases marked
    exact (update_of_ne ne _ _).trans (remove_of_ne (calm.unmarked_ne marked))
  · intro device' token' points
    change update t.store.userdeviceidToken dev (some token) device' = some token' at points
    grind [Calm.unmarked]

theorem Kept.dropAccess (job : ℕ) (dev : UserDeviceId) (calm : Calm t) : Kept t (t.after job [.clearedAccess dev]
      (t.store.dropAccess dev (t.store.userdeviceidToken dev))) := by
  refine ⟨rfl, rfl, rfl, ?_, rfl, fun _ mem => mem, ?_, fun _ known => known,
    fun stored => stored_after (by simp) stored⟩
  · intro other marked
    exact remove_of_ne (calm.unmarked_ne marked)
  · intro device' token' points
    change update t.store.userdeviceidToken dev none device' = some token' at points
    grind [Calm.unmarked]

theorem Kept.aside {store : Users} (calm : Calm t)
    (others : ∀ dev presented token, .storedRefresh dev presented token ∉ events) (same : store = { t.store with
      accessTokenLocks := store.accessTokenLocks
      drawn := store.drawn
      userdeviceidMetadata := store.userdeviceidMetadata })
    (drawn : ∀ token ∈ t.store.drawn, token ∈ store.drawn)
    (known : ∀ dev, t.store.userdeviceidMetadata dev = true →
      store.userdeviceidMetadata dev = true) : Kept t (t.after job events store) := by
  refine ⟨?_, ?_, ?_, fun token _ => ?_, ?_, drawn, fun points => ?_, known, fun stored => stored_after others stored⟩
  case refine_6 =>
    rw [World.after_store, same] at points
    exact calm.unmarked points
  all_goals rw [World.after_store, same]

theorem Calm.current_unique (calm : Calm t) (points : t.store.userdeviceidRefresh dev = some token)
    (points' : t.store.userdeviceidRefresh device' = some token) : dev = device' := by
  obtain ⟨-, -, -, expiresAt, row⟩ := calm.current points
  obtain ⟨-, -, -, expiresAt', row'⟩ := calm.current points'
  rw [row] at row'
  cases row'
  rfl

def Users.cleared (users : Users) (device : UserDeviceId) : Users :=
  users.dropRefresh device (users.userdeviceidRefresh device) (users.userdeviceidSpentrefresh device)

theorem cleared_refresh (points : (users.cleared dev).userdeviceidRefresh device' = some token) :
    device' ≠ dev ∧ users.userdeviceidRefresh device' = some token := by
  change update users.userdeviceidRefresh dev none device' = some token at points
  grind

variable {row : SpentRefresh}

theorem cleared_spent (found : (users.cleared dev).spentrefreshUserdeviceid token = some row) :
    users.spentrefreshUserdeviceid token = some row ∧ users.userdeviceidSpentrefresh dev ≠ some token := by
  change remove users.spentrefreshUserdeviceid (users.userdeviceidSpentrefresh dev) token = some row at found
  by_cases erased : users.userdeviceidSpentrefresh dev = some token
  · rw [erased] at found
    change update users.spentrefreshUserdeviceid token none token = some row at found
    rw [update_self] at found
    cases found
  · grind [remove_of_ne]

theorem Calm.cleared_row (calm : Calm t)
    (ne : device' ≠ dev) (points : t.store.userdeviceidRefresh device' = some token) :
    (t.store.cleared dev).tokenUserdeviceid token = t.store.tokenUserdeviceid token :=
  remove_of_ne fun same => ne (calm.current_unique points same)

theorem Calm.cleared (calm : Calm t) (others : ∀ dev presented token, .storedRefresh dev presented token ∉ events) :
    Calm (t.after job events (t.store.cleared dev)) where
  unmarked := calm.unmarked
  current points := by
    obtain ⟨ne, before⟩ := cleared_refresh points
    obtain ⟨marked, drawn, known, expiresAt, row⟩ := calm.current before
    exact ⟨marked, drawn, known, expiresAt, (calm.cleared_row ne before).trans row⟩
  spent found := by
    obtain ⟨before, other⟩ := cleared_spent found
    obtain ⟨points, current, drawn⟩ := calm.spent before
    have ne : _ ≠ dev := fun same => other (by rw [← same]; exact points)
    exact ⟨(update_of_ne ne _ _).trans points, (update_of_ne ne _ _).trans current, drawn⟩
  owner stored := by
    obtain ⟨drawn, current, spent⟩ := calm.owner (stored_after others stored)
    refine ⟨drawn, ?_, ?_⟩
    · intro device' points
      exact current device' (cleared_refresh points).2
    · intro row found
      exact spent row (cleared_spent found).1

theorem Tame.cleared (calm : Calm t) : Tame cfg aim t (t.after job events (t.store.cleared dev)) where
  now := le_refl _
  drawn _ mem := mem
  current points := by
    obtain ⟨ne, before⟩ := cleared_refresh points
    exact Or.inl ⟨before, calm.cleared_row ne before⟩
  spent _ found := Or.inl (cleared_spent found).1

def Users.rotated (users : Users) (device : UserDeviceId) (token : Token) (expiresAt : Option ℕ) : Users :=
  (users.cleared device).putRefresh device token expiresAt (users.userdeviceidRefresh device) users.now

theorem rotated_refresh (points : (users.rotated dev token expiresAt).userdeviceidRefresh device' = some token') :
    device' = dev ∧ token' = token ∨ device' ≠ dev ∧ users.userdeviceidRefresh device' = some token' := by
  rw [Users.rotated, Users.putRefresh_userdeviceidRefresh] at points
  grind [cleared_refresh]

theorem rotated_spent (found : (users.rotated dev token expiresAt).spentrefreshUserdeviceid token' = some row) :
    users.userdeviceidRefresh dev = some token' ∧ row = ⟨dev, token, users.now⟩ ∨
      users.spentrefreshUserdeviceid token' = some row ∧ users.userdeviceidSpentrefresh dev ≠ some token' := by
  unfold Users.rotated at found
  cases current : users.userdeviceidRefresh dev with
  | none =>
    rw [current] at found
    exact Or.inr (cleared_spent found)
  | some spent =>
    rw [current] at found
    change update (users.cleared dev).spentrefreshUserdeviceid spent
      (some ⟨dev, token, users.now⟩) token' = some row at found
    grind [cleared_spent]

theorem rotated_spentOf (ne : device' ≠ dev) : (users.rotated dev token expiresAt).userdeviceidSpentrefresh device' =
      users.userdeviceidSpentrefresh device' := by
  unfold Users.rotated
  cases users.userdeviceidRefresh dev with
  | none => exact update_of_ne ne _ _
  | some spent => exact (update_of_ne ne _ _).trans (update_of_ne ne _ _)

theorem rotated_drawn : (users.rotated dev token expiresAt).drawn = users.drawn := by
  unfold Users.rotated
  rw [Users.putRefresh_drawn]
  rfl

theorem rotated_now : (users.rotated dev token expiresAt).now = users.now := by
  unfold Users.rotated
  cases users.userdeviceidRefresh dev <;> rfl

theorem rotated_metadata : (users.rotated dev token expiresAt).userdeviceidMetadata = users.userdeviceidMetadata := by
  unfold Users.rotated
  cases users.userdeviceidRefresh dev <;> rfl

theorem Calm.rotated_row (calm : Calm t) (unused : Unused t token) (ne : device' ≠ dev)
    (points : t.store.userdeviceidRefresh device' = some token') :
    (t.store.rotated dev token expiresAt).tokenUserdeviceid token' = t.store.tokenUserdeviceid token' := by
  have other : token' ≠ token := by
    rintro rfl
    exact unused.current device' points
  rw [Users.rotated, Users.putRefresh_tokenUserdeviceid, update_of_ne other]
  exact calm.cleared_row ne points

theorem Calm.rotated (calm : Calm t) (unused : Unused t token) (known : t.store.userdeviceidMetadata dev = true) :
    Calm (t.after job [.storedRefresh dev presented token] (t.store.rotated dev token expiresAt)) := by
  have notSpent : ∀ {spent : Token}, t.store.userdeviceidRefresh dev = some spent → spent ≠ token := by
    grind [Unused.current]
  refine ⟨?_, ?_, ?_, ?_⟩
  · intro device' token' points
    rw [World.after_store, Users.rotated, Users.putRefresh_userdeviceidToken] at points
    exact calm.unmarked points
  · intro device' token' points
    rw [World.after_store] at points ⊢
    rw [rotated_drawn, rotated_metadata]
    rcases rotated_refresh points with ⟨rfl, rfl⟩ | ⟨ne, before⟩
    · refine ⟨unused.marked, unused.drawn, known, expiresAt, ?_⟩
      rw [Users.rotated, Users.putRefresh_tokenUserdeviceid, update_self]
    · grind [Calm.current, Calm.rotated_row]
  · intro token' row found
    rw [World.after_store] at found ⊢
    rw [rotated_drawn]
    rcases rotated_spent found with ⟨current, rfl⟩ | ⟨before, other⟩
    · refine ⟨?_, ?_, (calm.current current).2.1⟩
      · unfold Users.rotated
        rw [current]
        exact update_self ..
      · rw [Users.rotated, Users.putRefresh_userdeviceidRefresh, update_self]
    · obtain ⟨points, current, drawn⟩ := calm.spent before
      have ne : row.userdeviceid ≠ dev := fun same => other (by rw [← same]; exact points)
      refine ⟨(rotated_spentOf ne).trans points, ?_, drawn⟩
      rw [Users.rotated, Users.putRefresh_userdeviceidRefresh, update_of_ne ne]
      exact (update_of_ne ne _ _).trans current
  · intro device' token' stored
    rw [World.after_store, rotated_drawn]
    obtain ⟨storer, presented', mem⟩ := stored
    rcases List.mem_append.mp mem with before | new
    · have storedBefore : Stored t device' token' := ⟨storer, presented', before⟩
      have notNew : token' ≠ token := by
        rintro rfl
        exact unused.unstored device' storedBefore
      obtain ⟨drawn, current, spent⟩ := calm.owner storedBefore
      refine ⟨drawn, ?_, ?_⟩
      · intro device'' points
        rcases rotated_refresh points with ⟨-, same⟩ | ⟨-, pointed⟩
        · exact absurd same notNew
        · exact current device'' pointed
      · intro row found
        rcases rotated_spent found with ⟨pointed, rfl⟩ | ⟨found, -⟩
        · exact current dev pointed
        · exact spent row found
    · simp only [List.map_cons, List.map_nil, List.mem_singleton, Prod.mk.injEq, Event.storedRefresh.injEq] at new
      obtain ⟨-, rfl, -, rfl⟩ := new
      refine ⟨unused.drawn, ?_, ?_⟩
      · intro device'' points
        rcases rotated_refresh points with ⟨same, -⟩ | ⟨-, pointed⟩
        · exact same
        · exact absurd pointed (unused.current device'')
      · intro row found
        rcases rotated_spent found with ⟨pointed, -⟩ | ⟨found, -⟩
        · exact absurd rfl (notSpent pointed)
        · rw [unused.spent] at found
          cases found

theorem Tame.rotated (calm : Calm t) (unused : Unused t token) (new : token ∉ aim.old) (target : aim.Target dev)
    (expires : refreshExpiresAt cfg (t.store.priorExpiresAt cfg dev) t.store.now = .ok expiresAt)
    (alive : aim.ends → ∀ spent, t.store.userdeviceidRefresh dev = some spent →
      cfg.refreshTokenReuseGrace = 0 ∨ Alive t.store spent) :
    Tame cfg aim t (t.after job events (t.store.rotated dev token expiresAt)) where
  now := rotated_now.ge
  drawn _ mem := by
    rw [World.after_store, rotated_drawn]
    exact mem
  current points := by
    rcases rotated_refresh points with ⟨rfl, rfl⟩ | ⟨ne, before⟩
    · refine Or.inr ⟨new, target, expiresAt, expires, ?_⟩
      rw [World.after_store, Users.rotated, Users.putRefresh_tokenUserdeviceid, update_self]
    · exact Or.inl ⟨before, calm.rotated_row unused ne before⟩
  spent _ found := by
    rcases rotated_spent found with ⟨pointed, rfl⟩ | ⟨before, -⟩
    · exact Or.inr ⟨pointed, fun ends => alive ends _ pointed⟩
    · exact Or.inl before

end Writes

end Phantom.Accounts
