import Phantom.Lib.Protocol
import Phantom.Rooms.StateStore

namespace Phantom.Rooms

open Phantom.Lib Phantom.Matrix

inductive ShortInput where
  | event (id : EventId)
  | stateKey (key : StateKeyPair)
deriving DecidableEq

namespace ShortInput

def short : ShortInput → Store → Option ShortId
  | event id, store => store.shorteventids id
  | stateKey key, store => store.shortstatekeys key

variable (short : ShortId)

def ofShort : ShortInput → Store → Option ShortInput
  | event _, store => (store.eventids short).map event
  | stateKey _, store => (store.statekeys short).map stateKey

def put : ShortInput → Store → Store
  | event id, store => { store with shorteventids := Function.update store.shorteventids id (some short) }
  | stateKey key, store => { store with shortstatekeys := Function.update store.shortstatekeys key (some short) }

def putBack : ShortInput → Store → Store
  | event id, store => { store with eventids := Function.update store.eventids short (some id) }
  | stateKey key, store => { store with statekeys := Function.update store.statekeys short (some key) }

variable {input other : ShortInput} {short n : ShortId} {store : Store}

@[simp] theorem short_put_self : input.short (input.put short store) = some short := by
  cases input <;> simp [ShortInput.short, put]

theorem short_put_other (ne : other ≠ input) : other.short (input.put short store) = other.short store := by
  cases input <;> cases other <;> simp_all [ShortInput.short, put]

@[simp] theorem ofShort_put : other.ofShort n (input.put short store) = other.ofShort n store := by
  cases input <;> cases other <;> rfl

@[simp] theorem short_putBack : other.short (input.putBack short store) = other.short store := by
  cases input <;> cases other <;> rfl

@[simp] theorem ofShort_putBack_self : input.ofShort short (input.putBack short store) = some input := by
  cases input <;> simp [ofShort, putBack]

theorem ofShort_putBack_other (ne : n ≠ short) :
    other.ofShort n (input.putBack short store) = other.ofShort n store := by
  cases input <;> cases other <;> simp [ofShort, putBack, Function.update_of_ne ne]

@[simp] theorem short_counted : input.short store.counted = input.short store := by
  cases input <;> rfl

@[simp] theorem ofShort_counted : input.ofShort short store.counted = input.ofShort short store := by
  cases input <;> rfl

@[simp] theorem count_put : (input.put short store).count = store.count := by
  cases input <;> rfl

@[simp] theorem count_putBack : (input.putBack short store).count = store.count := by
  cases input <;> rfl

end ShortInput

inductive ShortReport where
  | missed (input : ShortInput)
  | drew (short : ShortId)
  | stored (input : ShortInput) (short : ShortId)
  | listed (input : ShortInput) (short : ShortId)
deriving DecidableEq

variable (input : ShortInput)

def ShortReport.Stores : ShortReport → Prop
  | stored other _ => other = input
  | _ => False

instance (input : ShortInput) (report : ShortReport) : Decidable (report.Stores input) := by
  cases report <;> unfold ShortReport.Stores <;> infer_instance

abbrev ShortTask := Task Unit ShortReport Store

/-- One step: the counter has a lock of its own. At its end the call panics and goes no further. -/
def takeCount : ShortTask ShortId :=
  .step (fun _ _ store =>
      if store.count.toNat + 1 < 2 ^ 64 then some ([.drew (store.count + 1)], store.counted) else none)
    (fun _ store => .done (store.count + 1))

def createShort : ShortTask ShortId := do
  let short ← takeCount
  Task.write [.stored input short] (input.put short)
  Task.write [.listed input short] (input.putBack short)
  return short

def getOrCreate : ShortTask ShortId := do
  let found ← Task.observe (fun store => if input.short store = none then [.missed input] else []) input.short
  match found with
  | some short => return short
  | none => createShort input

namespace Concurrent

def getOrCreateShorteventid (eventId : EventId) : ShortTask ShortEventId := getOrCreate (.event eventId)

def getOrCreateShortstatekey (eventType : EventType) (stateKey : String) : ShortTask ShortStateKey :=
  getOrCreate (.stateKey (eventType, stateKey))

end Concurrent

abbrev ShortWorld := World ShortReport Store

/-- A lookup misses an input only when every call that missed the same input before has stored its ID. -/
def Unrivalled (world : ShortWorld) : ℕ × ShortReport → Prop
  | (_, .missed input) => ∀ entry ∈ world.trace, entry.2 = .missed input →
      ∃ later ∈ world.trace, later.1 = entry.1 ∧ later.2.Stores input
  | _ => True

instance (world : ShortWorld) (entry : ℕ × ShortReport) : Decidable (Unrivalled world entry) := by
  obtain ⟨job, report⟩ := entry
  cases report <;> unfold Unrivalled <;> infer_instance

structure Interned (world : ShortWorld) : Prop where
  numbered : ∀ (input : ShortInput) (short : ShortId), input.short world.store = some short →
    short.toNat ≤ world.store.count.toNat
  injective : ∀ (left right : ShortInput) (short : ShortId), left.short world.store = some short →
    right.short world.store = some short → left = right
  drawn : ∀ (job : ℕ) (short : ShortId), .drew short ∈ world.own job → short.toNat ≤ world.store.count.toNat
  drawnOnce : ∀ (left right : ℕ) (short : ShortId), .drew short ∈ world.own left →
    .drew short ∈ world.own right → left = right
  drawnUsed : ∀ (job : ℕ) (short : ShortId) (input : ShortInput), .drew short ∈ world.own job →
    input.short world.store = some short → .stored input short ∈ world.own job
  missedOnce : ∀ (left right : ℕ) (input : ShortInput), .missed input ∈ world.own left →
    .missed input ∈ world.own right → left = right
  pending : ∀ (job : ℕ) (input : ShortInput), .missed input ∈ world.own job → input.short world.store = none ∨
    ∃ short, .stored input short ∈ world.own job
  stored : ∀ (job : ℕ) (input : ShortInput) (short : ShortId), .stored input short ∈ world.own job →
    input.short world.store = some short
  listed : ∀ (input : ShortInput) (short : ShortId), input.short world.store = some short →
    input.ofShort short world.store = some input ∨
      ∃ job, .stored input short ∈ world.own job ∧ .listed input short ∉ world.own job

inductive ShortMove (job : ℕ) (world : ShortWorld) : ShortWorld → Prop where
  | quiet : ShortMove job world world
  | miss (input : ShortInput) (first : world.own job = []) (absent : input.short world.store = none)
      (unrivalled : Unrivalled world (job, .missed input)) :
      ShortMove job world (world.after job [.missed input] world.store)
  | draw (input : ShortInput) (missed : world.own job = [.missed input])
      (room : world.store.count.toNat + 1 < 2 ^ 64) :
      ShortMove job world (world.after job [.drew (world.store.count + 1)] world.store.counted)
  | store (input : ShortInput) (short : ShortId) (drew : world.own job = [.missed input, .drew short]) :
      ShortMove job world (world.after job [.stored input short] (input.put short world.store))
  | list (input : ShortInput) (short : ShortId)
      (stored : world.own job = [.missed input, .drew short, .stored input short]) :
      ShortMove job world (world.after job [.listed input short] (input.putBack short world.store))

def shortProtocol : Protocol ShortReport Store where
  Inv := Interned
  May := ShortMove
  quiet _ _ := .quiet
  Allowed := Unrivalled

section Moves

variable {w after : ShortWorld} {job : ℕ} {input : ShortInput} {short : ShortId}

section

variable (interned : Interned w)
include interned

theorem Interned.miss (absent : input.short w.store = none) (unrivalled : Unrivalled w (job, .missed input)) :
    Interned (w.after job [.missed input] w.store) := by
  have never : ∀ other, .missed input ∉ w.own other := by
    intro other missed
    obtain ⟨later, reported, _, stores⟩ := unrivalled _ (World.mem_own.mp missed) rfl
    obtain ⟨storing, report⟩ := later
    cases report with
    | stored same short =>
      cases stores
      have held := interned.stored storing input short (World.mem_own.mpr reported)
      cases absent.symm.trans held
    | _ => exact stores
  refine ⟨interned.numbered, interned.injective, ?_, ?_, ?_, ?_, ?_, ?_, ?_⟩
  all_goals simp only [World.mem_own_after, World.after_store, List.mem_singleton, reduceCtorEq, and_false,
    or_false, ShortReport.missed.injEq]
  · exact interned.drawn
  · exact interned.drawnOnce
  · exact interned.drawnUsed
  · grind [Interned.missedOnce]
  · grind [Interned.pending]
  · exact interned.stored
  · exact interned.listed

theorem Interned.draw (room : w.store.count.toNat + 1 < 2 ^ 64) :
    Interned (w.after job [.drew (w.store.count + 1)] w.store.counted) := by
  have next : (w.store.count + 1).toNat = w.store.count.toNat + 1 := by
    exact Nat.mod_eq_of_lt room
  have count : w.store.counted.count = w.store.count + 1 := rfl
  have fresh : ∀ {short : ShortId}, short.toNat ≤ w.store.count.toNat → short ≠ w.store.count + 1 := by
    rintro short below rfl
    omega
  constructor
  all_goals simp only [World.mem_own_after, World.after_store, List.mem_singleton, reduceCtorEq, and_false,
    or_false, ShortReport.drew.injEq, ShortInput.short_counted, ShortInput.ofShort_counted, count, next]
  · grind [Interned.numbered]
  · exact interned.injective
  · grind [Interned.drawn]
  · rintro left right short (old | ⟨leftJob, leftShort⟩) (older | ⟨rightJob, rightShort⟩)
    · exact interned.drawnOnce left right short old older
    · exact absurd rightShort (fresh (interned.drawn left short old))
    · exact absurd leftShort (fresh (interned.drawn right short older))
    · exact leftJob.trans rightJob.symm
  · rintro other short input (old | ⟨rfl, rfl⟩) held
    · exact interned.drawnUsed other short input old held
    · exact absurd rfl (fresh (interned.numbered input _ held))
  · exact interned.missedOnce
  · exact interned.pending
  · exact interned.stored
  · exact interned.listed

theorem Interned.store (drew : w.own job = [.missed input, .drew short]) :
    Interned (w.after job [.stored input short] (input.put short w.store)) := by
  have missed : .missed input ∈ w.own job := by simp [drew]
  have drawn : .drew short ∈ w.own job := by simp [drew]
  have unstored : ∀ key n, .stored key n ∉ w.own job := by simp [drew]
  have absent : input.short w.store = none :=
    (interned.pending job input missed).resolve_right fun ⟨n, stored⟩ => unstored input n stored
  have unused : ∀ key : ShortInput, key.short w.store ≠ some short :=
    fun key held => unstored key short (interned.drawnUsed job short key drawn held)
  have cases : ∀ {key : ShortInput} {n : ShortId}, key.short (input.put short w.store) = some n →
      (key = input ∧ n = short) ∨ (key ≠ input ∧ key.short w.store = some n) := by
    grind [ShortInput.short_put_self, ShortInput.short_put_other]
  constructor
  all_goals simp only [World.mem_own_after, World.after_store, List.mem_singleton, reduceCtorEq, and_false,
    or_false, ShortReport.stored.injEq, ShortInput.ofShort_put, ShortInput.count_put]
  · intro key n held
    rcases cases held with ⟨rfl, rfl⟩ | ⟨_, held⟩
    · exact interned.drawn job n drawn
    · exact interned.numbered key n held
  · grind [Interned.injective]
  · exact interned.drawn
  · exact interned.drawnOnce
  · grind [Interned.drawnOnce, Interned.drawnUsed]
  · exact interned.missedOnce
  · grind [Interned.missedOnce, ShortInput.short_put_other, Interned.pending]
  · grind [Interned.stored, ShortInput.short_put_other, ShortInput.short_put_self]
  · grind [Interned.listed]

theorem Interned.list (stored : w.own job = [.missed input, .drew short, .stored input short]) :
    Interned (w.after job [.listed input short] (input.putBack short w.store)) := by
  have reported : .stored input short ∈ w.own job := by simp [stored]
  have held := interned.stored job input short reported
  constructor
  all_goals simp only [World.mem_own_after, World.after_store, List.mem_singleton, reduceCtorEq, and_false,
    or_false, ShortReport.listed.injEq, ShortInput.short_putBack, ShortInput.count_putBack]
  · exact interned.numbered
  · exact interned.injective
  · exact interned.drawn
  · exact interned.drawnOnce
  · exact interned.drawnUsed
  · exact interned.missedOnce
  · exact interned.pending
  · exact interned.stored
  · grind [Interned.injective, ShortInput.ofShort_putBack_self, ShortInput.ofShort_putBack_other, Interned.listed]

end

theorem ShortMove.short_kept (move : ShortMove job w after) (interned : Interned w)
    (held : input.short w.store = some short) : input.short after.store = some short := by
  cases move with
  | quiet | miss => exact held
  | draw => rw [World.after_store, ShortInput.short_counted, held]
  | store key n drew =>
    grind [Interned.pending, World.after_store, ShortInput.short_put_other]
  | list key n stored => rw [World.after_store, ShortInput.short_putBack, held]

end Moves

section Calls

open Phantom.Lib.Protocol

variable {world w : ShortWorld} {job : ℕ} {input : ShortInput} {short : ShortId} {events : List ShortReport}

def Did (job : ℕ) (events : List ShortReport) (world : ShortWorld) : Prop := world.own job = events

theorem Did.stable : shortProtocol.Stable job (Did job events) := stable_own

theorem Did.after (did : Did job events w) (report : ShortReport) (store : Store) :
    Did job (events ++ [report]) (w.after job [report] store) := by
  rw [Did, World.own_after, did]

def ShortAnswered (job : ℕ) (input : ShortInput) (short : ShortId) (world : ShortWorld) : Prop :=
  input.short world.store = some short ∧
    ∀ key number, .stored key number ∈ world.own job → .listed key number ∈ world.own job

theorem ShortAnswered.stable : shortProtocol.Stable job (ShortAnswered job input short) := by
  intro other events store w ne interned move answered
  refine ⟨move.short_kept interned answered.1, ?_⟩
  rw [World.own_after_other w ne]
  exact answered.2

theorem createShort_spec (did : Did job [.missed input] w) :
    shortProtocol.wp job (ShortAnswered job input) (createShort input) w := by
  apply wp_step Did.stable did
  intro counting _ reports store interned missed taken
  split at taken
  · next room =>
    cases taken
    refine ⟨.draw input missed room, interned.draw room, ?_⟩
    apply wp_write Did.stable (missed.after _ _)
    intro storing interned drew
    refine ⟨.store input _ drew, interned.store drew, ?_⟩
    apply wp_write Did.stable (drew.after _ _)
    intro listing interned stored
    refine ⟨.list input _ stored, interned.list stored, wp_return ShortAnswered.stable ⟨?_, ?_⟩⟩
    · rw [World.after_store, ShortInput.short_putBack]
      exact interned.stored job input _ (by rw [stored]; simp)
    · rw [World.own_after, stored]
      simp
  · cases taken

theorem getOrCreate_spec (did : Did job [] w) :
    shortProtocol.wp job (ShortAnswered job input) (getOrCreate input) w := by
  apply wp_observe Did.stable did
  intro later interned first allowed
  cases found : input.short later.store with
  | some short =>
    rw [if_neg (by simp), World.after_nil]
    refine ⟨.quiet, interned, wp_return ShortAnswered.stable ⟨found, ?_⟩⟩
    rw [first]
    exact nofun
  | none =>
    have unrivalled : Unrivalled later (job, .missed input) := allowed (.missed input) (by simp [found])
    exact ⟨.miss input first found unrivalled, interned.miss found unrivalled, createShort_spec (first.after _ _)⟩

/-- A store whose tables of short IDs are inverse to each other, with numbers that the counter has passed. -/
structure Store.Numbered (store : Store) : Prop where
  numbered : ∀ (input : ShortInput) (short : ShortId), input.short store = some short →
    short.toNat ≤ store.count.toNat
  injective : ∀ (left right : ShortInput) (short : ShortId), left.short store = some short →
    right.short store = some short → left = right
  listed : ∀ (input : ShortInput) (short : ShortId), input.short store = some short →
    input.ofShort short store = some input

theorem Store.Numbered.interned {store : Store} (numbered : store.Numbered) : Interned ⟨store, []⟩ where
  numbered := numbered.numbered
  injective := numbered.injective
  drawn := nofun
  drawnOnce := nofun
  drawnUsed := nofun
  missedOnce := nofun
  pending := nofun
  stored := nofun
  listed input short held := Or.inl (numbered.listed input short held)

abbrev ShortPool := Pool ShortInput Unit ShortReport Store ShortId

def AllReturned (pool : ShortPool) : Prop := ∀ job < pool.jobs.length, (pool.returned job).isSome

instance decidableAllReturned (pool : ShortPool) : Decidable (AllReturned pool) :=
  inferInstanceAs (Decidable (∀ job < pool.jobs.length, (pool.returned job).isSome))

/-- In every interleaving in which no input is looked up between the miss and the store of another call for
    it, a call returns the ID on record, inputs and IDs are in bijection, and once all calls are over the
    reverse table has them too. -/
theorem short_ids_bijective {store : Store} (numbered : store.Numbered) {turns : List (Turn ShortInput Unit)}
    {pool : ShortPool} (run : Run (Pool.Step getOrCreate Unrivalled) (Pool.idle store) turns pool)
    {job : ℕ} {input : ShortInput} {short : ShortId} (returned : pool.returned job = some (input, short)) :
    input.short pool.world.store = some short ∧
      (∀ other key number, pool.returned other = some (key, number) → (key = input ↔ number = short)) ∧
      (AllReturned pool → input.ofShort short pool.world.store = some input) := by
  have start : ∀ job input world, shortProtocol.Inv world → (∀ entry ∈ world.trace, entry.1 ≠ job) →
      shortProtocol.wp job (ShortAnswered job input) (getOrCreate input) world := by
    intro job input world _ unreported
    apply getOrCreate_spec
    apply List.eq_nil_iff_forall_not_mem.mpr
    grind [World.mem_own]
  have sound := Sound.run start run (Sound.idle numbered.interned)
  have answered : ∀ {other key number}, pool.returned other = some (key, number) →
      ShortAnswered other key number pool.world := sound.returned
  have held := (answered returned).1
  refine ⟨held, ?_, ?_⟩
  · intro other key number otherReturned
    have otherHeld := (answered otherReturned).1
    constructor
    · grind
    · rintro rfl
      exact sound.inv.injective key input number otherHeld held
  · intro ended
    rcases sound.inv.listed input short held with back | ⟨other, stored, unlisted⟩
    · exact back
    · have arrived := sound.reported _ (World.mem_own.mp stored)
      obtain ⟨⟨key, number⟩, otherReturned⟩ := Option.isSome_iff_exists.mp (ended other arrived)
      exact absurd ((answered otherReturned).2 input short stored) unlisted

end Calls

namespace Sample

theorem numbered_empty : Store.empty.Numbered where
  numbered input _ held := by cases input <;> cases held
  injective left _ _ held := by cases left <;> cases held
  listed input _ held := by cases input <;> cases held

def topicKey : ShortInput := .stateKey (.ofString "m.room.topic", "")

def messageId : ShortInput := .event ⟨"$message"⟩

def rivals : List (Turn ShortInput Unit) :=
  [.arrive topicKey, .arrive topicKey, .take 0 (), .take 1 (), .take 0 (), .take 0 (), .take 0 (),
    .take 1 (), .take 1 (), .take 1 ()]

theorem rivals_get_two_ids :
    ∃ pool, Run (Pool.Step getOrCreate fun _ _ => True) (Pool.idle .empty) rivals pool ∧ AllReturned pool ∧
      pool.returned 0 = some (topicKey, 1) ∧ pool.returned 1 = some (topicKey, 2) ∧
      topicKey.short pool.world.store = some 2 :=
  Pool.exists_run_of_play _ (by decide +kernel) fun _ _ returned => returned

def neighbours : List (Turn ShortInput Unit) :=
  [.arrive topicKey, .arrive messageId, .arrive topicKey, .take 0 (), .take 1 (), .take 1 (), .take 0 (), .take 0 (),
    .take 1 (), .take 2 (), .take 1 (), .take 0 ()]

theorem short_ids_bijective_neighbours :
    ∃ pool, Run (Pool.Step getOrCreate Unrivalled) (Pool.idle .empty) neighbours pool ∧
      pool.returned 2 = some (topicKey, 2) ∧ topicKey.ofShort 2 pool.world.store = some topicKey := by
  apply Pool.exists_run_of_play (fun pool => AllReturned pool ∧ pool.returned 2 = some (topicKey, 2)) (by decide +kernel)
  rintro pool run ⟨ended, returned⟩
  exact ⟨returned, (short_ids_bijective numbered_empty run returned).2.2 ended⟩

end Sample

end Phantom.Rooms
