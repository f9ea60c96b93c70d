import Phantom.Keys.Signatures

namespace Phantom.Keys

open Phantom.Lib Phantom.Matrix

def SignedIn (row : Option (Option Json)) (call : Sign) : Prop :=
  ∃ key, row = some (some key) ∧ signatureOf call.slot key = some (.string call.signature.2)

section Calls

variable {start : SignTables} {world w : SignWorld} {job : ℕ} {call : Sign} {row : Option (Option Json)} {value : Json}
  {more : List SignReport}

def Finished (job : ℕ) (call : Sign) (world : SignWorld) : Except SignError Unit → Prop
  | .ok _ => ∃ row value more, world.own job = .looked call row :: .put call value :: more
  | .error error => ∃ row, world.own job = [.looked call row] ∧ call.edited row = .error error

variable (userId : UserId)

theorem noteChanges_spec (count : ℕ) (rooms : List RoomId)
    (own : w.own job = .looked call row :: .put call value :: more) :
    (signJournal.protocol start).wp job (fun _ later => Finished job call later (.ok ()))
      (noteChanges userId count rooms) w := by
  induction rooms generalizing w more with
  | nil =>
    refine Journal.wp_entry own (fun _ _ => rfl) (fun _ => ⟨_, _, _, _, rfl⟩) ?_
    intro _ _ last ownLast
    exact Journal.wp_done ownLast fun end_ ownEnd => ⟨row, value, _, ownEnd⟩
  | cons roomId rooms ih =>
    refine Journal.wp_entry own (fun _ _ => rfl) (fun _ => ⟨_, _, _, _, rfl⟩) ?_
    intro _ _ last ownLast
    exact ih ownLast

theorem markDeviceKeyUpdate_spec (own : w.own job = .looked call row :: .put call value :: more) :
    (signJournal.protocol start).wp job (fun _ later => Finished job call later (.ok ()))
      (markDeviceKeyUpdate userId) w := by
  refine Journal.wp_entry own (fun _ _ => rfl) (fun _ => ⟨_, _, _, _, rfl⟩) ?_
  intro _ _ drawn ownDrawn
  refine Journal.wp_entry ownDrawn (fun _ _ => rfl) (fun _ => ⟨_, _, _, _, rfl⟩) ?_
  intro _ _ listed ownListed
  exact noteChanges_spec userId _ _ ownListed

theorem finished_stable {result : Except SignError Unit} :
    (signJournal.protocol start).Stable job (fun w => Finished job call w result) := by
  intro other events store w ne _ _ finished
  unfold Finished at finished ⊢
  rw [World.own_after_other w ne]
  exact finished

theorem signKey_spec (call : Sign) (own : w.own job = []) :
    (signJournal.protocol start).wp job (fun result later => Finished job call later result) (signKey call) w := by
  refine Journal.wp_entry own (fun _ _ => rfl) (fun _ => ⟨rfl, rfl⟩) ?_
  intro _ looking read ownRead
  simp only [Lib.Task.bind]
  cases accepted : call.edited (looking.keyidKey call.key) with
  | error error => exact Journal.wp_done ownRead fun end_ ownEnd => ⟨_, ownEnd, accepted⟩
  | ok value =>
    refine Journal.wp_entry ownRead (fun _ _ => rfl) (fun _ => ⟨_, rfl, accepted⟩) ?_
    intro _ _ put ownPut
    apply Protocol.wp_seq (markDeviceKeyUpdate_spec call.targetId ownPut)
    intro _ last _ finished
    exact Protocol.wp_return finished_stable finished

end Calls

section Carried

variable {start : SignTables} {w : SignWorld} {key : KeyName} {writer job : ℕ} {call other : Sign} {value another : Json}

theorem signed_of_carries (written : signJournal.Written start w)
    (agree : ∀ {left right call other value another}, (left, .put call value) ∈ w.trace →
      (right, .put other another) ∈ w.trace → call.key = key → other.key = key → call.slot = other.slot →
      call.signature.2 = other.signature.2)
    (carries : Swap.Carries (swaps key w.trace) writer job) (put : (writer, .put call value) ∈ w.trace)
    (named : call.key = key) (earlier : (job, .put other another) ∈ w.trace) (namedToo : other.key = key) :
    signatureOf other.slot value = some (.string other.signature.2) := by
  induction carries generalizing call value with
  | self user =>
    grind [put_unique, looked_of_put, signatureOf_edited_self]
  | @found user next earliest sighted carries ih =>
    obtain ⟨reader, row, result, looked, _, _, version⟩ := (versions_of_written written key).sighted _ _ sighted
    obtain ⟨read, lookedToo, accepted⟩ := looked_of_put written put
    obtain ⟨rfl, rfl⟩ := looked_unique written looked lookedToo
    obtain ⟨before, old, putBefore, namedBefore, rfl⟩ := version
    grind [signatureOf_edited_self, signatureOf_edited_ne]

theorem carries_of_signed (written : signJournal.Written start w)
    (distinct : ∀ {left right call other value another}, (left, .put call value) ∈ w.trace →
      (right, .put other another) ∈ w.trace → call.key = key → other.key = key → call.slot = other.slot → left = right)
    (new : ∀ {job call value}, (job, .put call value) ∈ w.trace → call.key = key → ¬ SignedIn (start.keyidKey key) call)
    (put : (writer, .put call value) ∈ w.trace) (named : call.key = key)
    (earlier : (job, .put other another) ∈ w.trace) (namedToo : other.key = key)
    (signed : signatureOf other.slot value = some (.string other.signature.2)) :
    Swap.Carries (swaps key w.trace) writer job := by
  have versions := versions_of_written written key
  induction order : (Swap.writers (swaps key w.trace)).idxOf writer using Nat.strong_induction_on
    generalizing writer call value with
  | _ pos ih =>
    by_cases same : other.slot = call.slot
    · rw [distinct earlier put namedToo named same]
      exact .self writer
    · obtain ⟨row, looked, accepted⟩ := looked_of_put written put
      obtain ⟨found, sighted⟩ := versions.looked writer call row value looked named accepted
      obtain ⟨reader, read, result, lookedToo, _, _, version⟩ := versions.sighted writer found sighted
      obtain ⟨rfl, rfl⟩ := looked_unique written looked lookedToo
      obtain ⟨old, _, _, rfl, _⟩ := edited_eq_ok accepted
      rw [signatureOf_edited_ne accepted same] at signed
      cases found with
      | none => exact absurd ⟨old, version.symm, signed⟩ (new earlier namedToo)
      | some next =>
        obtain ⟨before, stored, putBefore, namedBefore, equal⟩ := version
        cases equal
        have wrote := (versions.wrote writer).mpr ⟨call, value, put, named⟩
        have less := versions.lawful.idxOf_lt sighted wrote
        exact .found sighted (ih _ (order ▸ less) putBefore namedBefore signed rfl)

end Carried

def Signs (pool : SignPool) (key : KeyName) (job : ℕ) (call : Sign) : Prop :=
  pool.returned job = some (call, .ok ()) ∧ call.key = key

def AllSigned (pool : SignPool) (key : KeyName) : Prop :=
  ∀ job call, Signs pool key job call → SignedIn (pool.world.store.keyidKey key) call

section Ended

variable {start : SignTables} {pool : SignPool} {key : KeyName}

abbrev SignSound (start : SignTables) (pool : SignPool) : Prop := Protocol.Sound (signJournal.protocol start)
  (fun job call result world => Finished job call world result) pool

section

variable (sound : SignSound start pool) (returned : ∀ job < pool.jobs.length, (pool.returned job).isSome)
include sound returned

theorem signs_iff
    {job : ℕ}
    {call : Sign} : Signs pool key job call ↔ (∃ value, (job, .put call value) ∈ pool.world.trace) ∧ call.key = key := by
  apply and_congr_left
  intro _
  constructor
  · intro ended
    obtain ⟨row, value, more, own⟩ : Finished job call pool.world (.ok ()) := sound.returned ended
    exact ⟨value, World.mem_own.mp (by simp [own])⟩
  · rintro ⟨value, put⟩
    obtain ⟨⟨other, result⟩, ended⟩ := Option.isSome_iff_exists.mp (returned job (sound.reported _ put))
    have finished : Finished job other pool.world result := sound.returned ended
    have inside := World.mem_own.mpr put
    cases result with
    | ok =>
      obtain ⟨row, value, more, own⟩ := finished
      have wrote : (job, .put other value) ∈ pool.world.trace := World.mem_own.mp (by simp [own])
      obtain ⟨rfl, _⟩ := put_unique sound.inv put wrote
      exact ended
    | error error =>
      obtain ⟨row, own, _⟩ := finished
      rw [own] at inside
      cases List.mem_singleton.mp inside

theorem complete_of_returned
    :
    Swap.Complete (swaps key pool.world.trace) := by
  have versions := versions_of_written sound.inv key
  rintro ⟨job, found⟩ sighted
  obtain ⟨call, row, value, looked, named, accepted, _⟩ := versions.sighted job found sighted
  obtain ⟨⟨other, result⟩, ended⟩ := Option.isSome_iff_exists.mp (returned job (sound.reported _ looked))
  have finished : Finished job other pool.world result := sound.returned ended
  cases result with
  | ok =>
    obtain ⟨read, written, more, own⟩ := finished
    have lookedToo : (job, .looked other read) ∈ pool.world.trace := World.mem_own.mp (by simp [own])
    obtain ⟨rfl, _⟩ := looked_unique sound.inv looked lookedToo
    exact (versions.wrote job).mpr ⟨call, written, World.mem_own.mp (by simp [own]), named⟩
  | error error =>
    obtain ⟨read, own, failed⟩ := finished
    have lookedToo : (job, .looked other read) ∈ pool.world.trace := World.mem_own.mp (by simp [own])
    obtain ⟨rfl, rfl⟩ := looked_unique sound.inv looked lookedToo
    cases accepted.symm.trans failed

theorem exists_last
    {job : ℕ}
    {call : Sign} (signs : Signs pool key job call) :
    ∃ writer other value, Swap.cell (swaps key pool.world.trace) = some writer ∧
      (writer, .put other value) ∈ pool.world.trace ∧ other.key = key ∧ pool.world.store.keyidKey key = some
      (some value) := by
  have versions := versions_of_written sound.inv key
  obtain ⟨⟨value, put⟩, named⟩ := (signs_iff sound returned).mp signs
  have wrote := (versions.wrote job).mpr ⟨call, value, put, named⟩
  have stored := versions.stored
  cases last : Swap.cell (swaps key pool.world.trace) with
  | none =>
    obtain ⟨event, mem, gives⟩ := List.mem_filterMap.mp wrote
    cases gives.symm.trans (lastSome_eq_none.mp last event mem)
  | some writer =>
    rw [last] at stored
    obtain ⟨other, written, putLast, namedLast, row⟩ := stored
    grind

end

end Ended

/-- Once all calls have returned: if no call has read the key between the read and the write of another, and calls of one
    sender with one signature name bring one signature, then every signature is in the key. Where the places are distinct
    and the signatures new, the first is also necessary. -/
theorem key_signatures_kept {start : SignTables} {turns : List (Turn Sign Unit)} {pool : SignPool}
    (run : Run (Pool.Step signKey fun _ _ => True) (Pool.idle start) turns pool)
    (returned : ∀ job < pool.jobs.length, (pool.returned job).isSome) (key : KeyName) :
    ((∀ job call another other, Signs pool key job call → Signs pool key another other → call.slot = other.slot →
        call.signature.2 = other.signature.2) → Swap.Apart (swaps key pool.world.trace) → AllSigned pool key) ∧
    ((∀ job call another other, Signs pool key job call → Signs pool key another other → call.slot = other.slot →
        job = another) → (∀ job call, Signs pool key job call → ¬ SignedIn (start.keyidKey key) call) →
      (AllSigned pool key ↔ Swap.Apart (swaps key pool.world.trace))) := by
  have sound : SignSound start pool := by
    apply Protocol.Sound.run _ run (.idle Journal.Written.blank)
    intro job call world _ unreported
    exact signKey_spec call (Journal.own_eq_nil unreported)
  have versions := versions_of_written sound.inv key
  have complete : Swap.Complete (swaps key pool.world.trace) := complete_of_returned sound returned
  have kept : (∀ job call another other, Signs pool key job call → Signs pool key another other → call.slot = other.slot →
      call.signature.2 = other.signature.2) → Swap.Apart (swaps key pool.world.trace) → AllSigned pool key := by
    intro agree apart job call signs
    obtain ⟨writer, other, value, last, putLast, namedLast, row⟩ := exists_last sound returned signs
    obtain ⟨⟨written, put⟩, named⟩ := (signs_iff sound returned).mp signs
    have wrote := (versions.wrote job).mpr ⟨call, written, put, named⟩
    have carries := versions.lawful.carries_of_apart apart last job wrote
    refine ⟨value, row, signed_of_carries sound.inv ?_ carries putLast namedLast put named⟩
    intro left right one two first second putOne putTwo namedOne namedTwo
    exact agree left one right two ((signs_iff sound returned).mpr ⟨⟨first, putOne⟩, namedOne⟩)
      ((signs_iff sound returned).mpr ⟨⟨second, putTwo⟩, namedTwo⟩)
  refine ⟨kept, ?_⟩
  intro distinct new
  constructor
  · intro signed
    have carried : ∀ writer ∈ Swap.writers (swaps key pool.world.trace),
        Swap.Carries (swaps key pool.world.trace) ((Swap.cell (swaps key pool.world.trace)).getD 0) writer := by
      intro job wrote
      obtain ⟨call, value, put, named⟩ := (versions.wrote job).mp wrote
      have signs : Signs pool key job call := (signs_iff sound returned).mpr ⟨⟨value, put⟩, named⟩
      obtain ⟨writer, other, stored, last, putLast, namedLast, row⟩ := exists_last sound returned signs
      obtain ⟨_, same, present⟩ := signed job call signs
      cases row.symm.trans same
      rw [last]
      refine carries_of_signed sound.inv ?_ ?_ putLast namedLast put named present
      · intro left right one two first second putOne putTwo namedOne namedTwo
        exact distinct left one right two ((signs_iff sound returned).mpr ⟨⟨first, putOne⟩, namedOne⟩)
          ((signs_iff sound returned).mpr ⟨⟨second, putTwo⟩, namedTwo⟩)
      · intro left one first putOne namedOne
        exact new left one ((signs_iff sound returned).mpr ⟨⟨first, putOne⟩, namedOne⟩)
    exact versions.lawful.apart_of_carries complete carried
  · apply kept
    intro job call another other signs signsToo same
    obtain rfl := distinct job call another other signs signsToo same
    have equal := signs.1.symm.trans signsToo.1
    cases equal
    rfl

namespace Sample

def master : KeyName := (⟨"@alice:phantom"⟩, "MASTER")

def unsigned : SignTables := ⟨fun _ => some (some (.object [("signatures", .object [])])), 0, fun _ => none, fun _ => []⟩

def sign (sender name signature : String) : Sign := ⟨master.1, master.2, (name, signature), ⟨sender⟩⟩

def byBob : Sign := sign "@bob:phantom" "ed25519:B" "sigB"

def byCarol : Sign := sign "@carol:phantom" "ed25519:C" "sigC"

def bobAgain : Sign := sign "@bob:phantom" "ed25519:B" "sigB2"

def overlapping : List (Turn Sign Unit) :=
  [.arrive byBob, .arrive byCarol, .take 0 (), .take 1 ()] ++ List.replicate 4 (.take 0 ()) ++
  List.replicate 4 (.take 1 ())

def oneAfterTheOther (first second : Sign) : List (Turn Sign Unit) :=
  [.arrive first, .arrive second] ++ List.replicate 5 (.take 0 ()) ++ List.replicate 5 (.take 1 ())

def signatureText (call : Sign) (tables : SignTables) : Option String :=
  match (tables.keyidKey call.key).join.bind (signatureOf call.slot) with
  | some (.string text) => some text
  | _ => none

theorem not_signedIn {call : Sign} {t : SignTables} (text : signatureText call t ≠ some call.signature.2) :
    ¬ SignedIn (t.keyidKey call.key) call := by
  rintro ⟨key, row, signed⟩
  grind [signatureText]

def okOf (returned : Option (Sign × Except SignError Unit)) : Option Sign :=
  match returned with
  | some (call, .ok _) => some call
  | _ => none

theorem returned_of_okOf {returned : Option (Sign × Except SignError Unit)} {call : Sign}
    (ok : okOf returned = some call) :
    returned = some (call, .ok ()) := by
  unfold okOf at ok
  split at ok
  · cases ok
    rfl
  · cases ok

theorem signature_lost_or_replaced :
    (∃ pool, Run (Pool.Step signKey fun _ _ => True) (Pool.idle unsigned) overlapping pool ∧
      okOf (pool.returned 0) = some byBob ∧ okOf (pool.returned 1) = some byCarol ∧
      ¬ SignedIn (pool.world.store.keyidKey byBob.key) byBob) ∧
    ∃ pool, Run (Pool.Step signKey fun _ _ => True) (Pool.idle unsigned) (oneAfterTheOther byBob bobAgain) pool ∧
      okOf (pool.returned 0) = some byBob ∧ okOf (pool.returned 1) = some bobAgain ∧
      ¬ SignedIn (pool.world.store.keyidKey byBob.key) byBob := by
  constructor
  · apply Pool.exists_run_of_play (fun pool => okOf (pool.returned 0) = some byBob ∧
      okOf (pool.returned 1) = some byCarol ∧ signatureText byBob pool.world.store ≠ some byBob.signature.2)
      (by decide +kernel)
    rintro pool run ⟨first, second, lost⟩
    exact ⟨first, second, not_signedIn lost⟩
  · apply Pool.exists_run_of_play (fun pool => okOf (pool.returned 0) = some byBob ∧
      okOf (pool.returned 1) = some bobAgain ∧ signatureText byBob pool.world.store ≠ some byBob.signature.2)
      (by decide +kernel)
    rintro pool run ⟨first, second, replaced⟩
    exact ⟨first, second, not_signedIn replaced⟩

theorem key_signatures_kept_one_after_the_other :
    ∃ pool, Run (Pool.Step signKey fun _ _ => True) (Pool.idle unsigned) (oneAfterTheOther byBob byCarol) pool ∧
      (∃ job call, Signs pool master job call) ∧ AllSigned pool master := by
  apply Pool.exists_run_of_play (fun pool : SignPool => pool.jobs.length = 2 ∧ okOf (pool.returned 0) = some byBob ∧
    okOf (pool.returned 1) = some byCarol ∧ Swap.Apart (swaps master pool.world.trace)) (by decide +kernel)
  rintro pool run ⟨two, first, second, apart⟩
  have first := returned_of_okOf first
  have second := returned_of_okOf second
  have returned : ∀ job < pool.jobs.length, (pool.returned job).isSome := by
    intro job arrived
    have cases : job = 0 ∨ job = 1 := by omega
    rcases cases with rfl | rfl
    · rw [first]
      rfl
    · rw [second]
      rfl
  have signers : ∀ job call, Signs pool master job call → call = byBob ∨ call = byCarol := by
    rintro job call ⟨ended, _⟩
    by_cases arrived : job < pool.jobs.length
    · have cases : job = 0 ∨ job = 1 := by omega
      rcases cases with rfl | rfl
      · cases first.symm.trans ended
        exact Or.inl rfl
      · cases second.symm.trans ended
        exact Or.inr rfl
    · rw [Pool.returned, List.getElem?_eq_none (by omega)] at ended
      cases ended
  have kept := (key_signatures_kept run returned master).1
  refine ⟨⟨0, byBob, first, rfl⟩, kept ?_ apart⟩
  intro job call another other signs signsToo same
  rcases signers job call signs with rfl | rfl <;> rcases signers another other signsToo with rfl | rfl
  · rfl
  · exact absurd same (by decide)
  · exact absurd same (by decide)
  · rfl

end Sample

end Phantom.Keys
