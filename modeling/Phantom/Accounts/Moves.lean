import Phantom.Lib.Protocol
import Phantom.Accounts.Sessions

namespace Phantom.Accounts

open Phantom.Lib Phantom.Matrix Function

variable {entries : List (ℕ × Event)}
variable {event : Event}
variable {events : List Event}
variable {job : ℕ}
variable {other : ℕ}

def Event.isAcquired : Event → Bool
  | .acquired _ => true
  | _ => false

def recent (events : List Event) : List Event := events.reverse.takeWhile fun event => !event.isAcquired

variable {tail : List Event}

theorem recent_append (inside : ∀ event ∈ tail, event.isAcquired = false) :
    recent (events ++ tail) = tail.reverse ++ recent events := by
  grind [List.takeWhile_append_of_pos, recent]

variable {user : UserId}

theorem recent_section (inside : ∀ event ∈ tail, event.isAcquired = false) :
    recent (events ++ .acquired user :: tail) = tail.reverse := by
  have opened : recent (events ++ [.acquired user]) = [] := by simp [recent, Event.isAcquired]
  rw [← List.singleton_append, ← List.append_assoc, recent_append inside, opened, List.append_nil]

/-- A job that reads the current refresh token to replace it has dropped it since. -/
def Settled (events : List Event) : Prop :=
  ∀ device presented, .rotating device presented ∈ recent events → .clearedRefresh device ∈ recent events

theorem mem_recent (mem : event ∈ recent events) :
    event ∈ events := List.mem_reverse.mp ((List.takeWhile_sublist _).subset mem)

theorem recent_concat (inside : event.isAcquired = false) : recent (events ++ [event]) = event :: recent events := by
  rw [recent_append (by simpa using inside)]
  rfl

theorem settled_of_forall (none : ∀ dev presented, .rotating dev presented ∉ events) : Settled events := by
  intro dev presented mem
  exact absurd (mem_recent mem) (none dev presented)

abbrev Tables := World Event Users

/-- What a step of a job can do to the tables. The tokens of a device are only written under the lock
    of its user, by a job that drew them itself, and the pointer to the access token does not change
    between its read and the write that follows. Refresh tokens are dropped without the lock. -/
inductive Move (job : ℕ) (tables : Tables) : Tables → Prop where
  | quiet : Move job tables tables
  | elapse (seconds : ℕ) :
    Move job tables (tables.after job [] { tables.store with now := tables.store.now + seconds })
  | draw (token : Token) (fresh : token ∉ tables.store.drawn) :
    Move job tables (tables.after job [.drew token] (tables.store.draw token))
  | acquire (user : UserId) (free : tables.store.accessTokenLocks user = none)
    (settled : Settled (tables.own job)) :
    Move job tables (tables.after job [.acquired user] (tables.store.lock user job))
  | release (user : UserId) (held : tables.store.accessTokenLocks user = some job)
    (settled : Settled (tables.own job)) :
    Move job tables (tables.after job [] (tables.store.unlock user))
  | removing (device : UserDeviceId) (first : tables.own job = []) :
    Move job tables (tables.after job [.removing device tables.store.drawn] tables.store)
  | check (device : UserDeviceId) (presented : Option Token) (accessToken : Token)
    (held : tables.store.accessTokenLocks device.userId = some job) :
    Move job tables (tables.after job [.checked device presented accessToken] tables.store)
  | rotate (device : UserDeviceId) (presented : Option Token)
    (held : tables.store.accessTokenLocks device.userId = some job)
    (uncleared : .clearedRefresh device ∉ recent (tables.own job)) :
    Move job tables (tables.after job [.rotating device presented] tables.store)
  | dropRefresh (device : UserDeviceId) (refreshToken spent : Option Token) :
    Move job tables (tables.after job [.clearedRefresh device] (tables.store.dropRefresh device refreshToken spent))
  | putRefresh (device : UserDeviceId) (presented : Option Token) (token : Token)
    (expiresAt : Option ℕ) (spent : Option Token) (spentAt : ℕ)
    (held : tables.store.accessTokenLocks device.userId = some job)
    (marked : token.isRefreshToken = true) (drew : .drew token ∈ tables.own job)
    (first : ∀ device presented token, .storedRefresh device presented token ∉ tables.own job)
    (rotating : .rotating device presented ∈ recent (tables.own job)) :
    Move job tables (tables.after job [.storedRefresh device presented token]
      (tables.store.putRefresh device token expiresAt spent spentAt))
  | dropAccess (device : UserDeviceId)
    (held : tables.store.accessTokenLocks device.userId = some job) :
    Move job tables (tables.after job [.clearedAccess device]
      (tables.store.dropAccess device (tables.store.userdeviceidToken device)))
  | putAccess (device : UserDeviceId) (presented : Option Token) (token : Token)
    (expiresAt : Option ℕ) (held : tables.store.accessTokenLocks device.userId = some job)
    (unmarked : token.isRefreshToken = false) (drew : .drew token ∈ tables.own job)
    (again : ∀ device' presented' token', .storedAccess device' presented' token' ∈ tables.own job →
      device' = device ∧ presented' = presented ∧ token' = token)
    (checked : .checked device presented token ∈ recent (tables.own job)) :
    Move job tables (tables.after job [.storedAccess device presented token]
      (tables.store.putAccess device (tables.store.userdeviceidToken device) token expiresAt))
  | setMetadata (device : UserDeviceId) (known : Bool) :
    Move job tables (tables.after job [] (tables.store.setMetadata device known))

def tokenProtocol : Protocol Event Users where
  Inv _ := True
  May := Move
  quiet _ _ := .quiet

namespace Users

variable (users : Users) (dev : UserDeviceId) (token : Token) (expiresAt : Option ℕ)
variable (spent : Option Token) (spentAt : ℕ)

@[simp] theorem putRefresh_accessTokenLocks : (users.putRefresh dev token expiresAt spent spentAt).accessTokenLocks =
      users.accessTokenLocks := by
  cases spent <;> rfl

@[simp] theorem putRefresh_userdeviceidToken :
    (users.putRefresh dev token expiresAt spent spentAt).userdeviceidToken = users.userdeviceidToken := by
  cases spent <;> rfl

@[simp] theorem putRefresh_drawn : (users.putRefresh dev token expiresAt spent spentAt).drawn = users.drawn := by
  cases spent <;> rfl

@[simp] theorem putRefresh_userdeviceidRefresh :
    (users.putRefresh dev token expiresAt spent spentAt).userdeviceidRefresh =
      update users.userdeviceidRefresh dev (some token) := by
  cases spent <;> rfl

@[simp] theorem putRefresh_tokenUserdeviceid :
    (users.putRefresh dev token expiresAt spent spentAt).tokenUserdeviceid =
      update users.tokenUserdeviceid token (some (dev, expiresAt)) := by
  cases spent <;> rfl

end Users

variable {tables t : Tables}

section

variable {after : Tables} (ne : other ≠ job) (move : Move other t after)
include ne move

theorem Move.own_other : after.own job = t.own job := by
  cases move <;> first | rfl | exact World.own_after_other _ ne _ _

theorem Move.held_other (held : t.store.accessTokenLocks user = some job) :
    after.store.accessTokenLocks user = some job := by
  cases move with
  | acquire user' free _ =>
    have elsewhere : user ≠ user' := by
      rintro rfl
      rw [free] at held
      cases held
    exact (update_of_ne elsewhere _ _).trans held
  | release user' held' _ =>
    have elsewhere : user ≠ user' := by
      grind
    exact (update_of_ne elsewhere _ _).trans held
  | putRefresh => simpa using held
  | _ => exact held

theorem Move.userdeviceidToken_other {dev : UserDeviceId} (held : t.store.accessTokenLocks dev.userId = some job) :
    after.store.userdeviceidToken dev = t.store.userdeviceidToken dev := by
  have elsewhere : ∀ device' : UserDeviceId,
      t.store.accessTokenLocks device'.userId = some other → dev ≠ device' := by
    grind
  cases move with
  | dropAccess device' held' | putAccess device' _ _ _ held' => exact update_of_ne (elsewhere device' held') _ _
  | putRefresh => simp
  | _ => rfl

end

def Guard (job : ℕ) (tables after : Tables) : Event → Prop
  | .drew token => token ∉ tables.store.drawn ∧ token ∈ after.store.drawn
  | .acquired user => tables.store.accessTokenLocks user = none
  | .checked device _ _ | .clearedAccess device =>
    tables.store.accessTokenLocks device.userId = some job
  | .rotating device _ => tables.store.accessTokenLocks device.userId = some job ∧
    .clearedRefresh device ∉ recent (tables.own job) ∧ after.store = tables.store
  | .clearedRefresh _ => True
  | .storedRefresh device presented token => .drew token ∈ tables.own job ∧
    (∀ device presented token, .storedRefresh device presented token ∉ tables.own job) ∧
    .rotating device presented ∈ recent (tables.own job)
  | .storedAccess device presented token => .drew token ∈ tables.own job ∧
    (∀ device' presented' token', .storedAccess device' presented' token' ∈ tables.own job →
      device' = device ∧ presented' = presented ∧ token' = token) ∧
    .checked device presented token ∈ recent (tables.own job) ∧
    tables.store.accessTokenLocks device.userId = some job
  | .removing _ drawn => tables.own job = [] ∧ drawn = tables.store.drawn

theorem Move.reported {after : Tables} (move : Move job t after) (grown : after.trace = t.trace ++ entries) :
    entries = [] ∨ ∃ event, entries = [(job, event)] ∧ Guard job t after event := by
  have nothing : t.trace = t.trace ++ entries →
      entries = [] ∨ ∃ event, entries = [(job, event)] ∧ Guard job t after event := by
    intro same
    exact Or.inl (List.append_right_eq_self.mp same.symm)
  have added : ∀ event, t.trace ++ [(job, event)] = t.trace ++ entries → Guard job t after event →
      entries = [] ∨ ∃ event, entries = [(job, event)] ∧ Guard job t after event := by
    grind [List.append_cancel_left]
  cases move with
  | quiet => exact nothing grown
  | elapse seconds | release user held settled | setMetadata dev known => exact nothing (by simpa using grown)
  | draw token fresh => exact added _ grown ⟨fresh, List.mem_cons_self⟩
  | acquire user free settled => exact added _ grown free
  | removing dev first => exact added _ grown ⟨first, rfl⟩
  | check dev presented accessToken held | dropAccess dev held => exact added _ grown held
  | rotate dev presented held uncleared => exact added _ grown ⟨held, uncleared, rfl⟩
  | dropRefresh dev refreshToken spent => exact added _ grown trivial
  | putRefresh dev presented token expiresAt spent spentAt held marked drew first rotating =>
    exact added _ grown ⟨drew, first, rotating⟩
  | putAccess dev presented token expiresAt held unmarked drew again checked =>
    exact added _ grown ⟨drew, again, checked, held⟩

theorem Move.entry_cases {job' : ℕ} {after : Tables} (move : Move job t after)
    (grown : after.trace = t.trace ++ entries) (mem : (job', event) ∈ after.trace) : (job', event) ∈ t.trace ∨
      job' = job ∧ entries = [(job, event)] ∧ Guard job t after event := by
  grind [Move.reported]

structure At (job : ℕ) (lock : Option UserId) (events : List Event) (tables : Tables) : Prop where
  own : tables.own job = events
  held : ∀ user ∈ lock, tables.store.accessTokenLocks user = some job

section Stands

variable {job : ℕ} {lock : Option UserId} {events : List Event} {t : Tables}

theorem At.stable : tokenProtocol.Stable job (At job lock events) :=
  fun _ events store t ne _ move stands => ⟨(World.own_after_other t ne events store).trans stands.own,
    fun user mem => Move.held_other ne move (stands.held user mem)⟩

theorem At.stable_token {dev : UserDeviceId} {token : Option Token} :
    tokenProtocol.Stable job (fun t => At job (some dev.userId) events t ∧ t.store.userdeviceidToken dev = token) :=
  fun other events store t ne inv move both => ⟨At.stable other events store t ne inv move both.1,
    (Move.userdeviceidToken_other ne move (both.1.held _ rfl)).trans both.2⟩

theorem At.after {more : List Event} {store : Users} (stands : At job lock events t)
    (locks : store.accessTokenLocks = t.store.accessTokenLocks) :
    At job lock (events ++ more) (t.after job more store) where
  own := by rw [World.own_after, stands.own]
  held := by
    intro user mem
    rw [World.after_store, locks]
    exact stands.held user mem

end Stands

end Phantom.Accounts
