import Mathlib.Data.Prod.Lex
import Phantom.Lib.Bytes
import Phantom.Lib.Schedule

namespace Phantom.Rooms

open Phantom.Lib

abbrev ShortId := UInt64
abbrev ShortStateKey := ShortId
abbrev ShortEventId := ShortId
abbrev ShortStateHash := ShortId

/-- The sixteen bytes of a compressed state event, by their two big-endian words. -/
structure CompressedStateEvent where
  shortstatekey : ShortStateKey
  shorteventid : ShortEventId
deriving Repr

namespace CompressedStateEvent

variable (event : CompressedStateEvent)

def rank : ℕ ×ₗ ℕ :=
  toLex (event.shortstatekey.toNat, event.shorteventid.toNat)

theorem rank_injective : Function.Injective rank := by
  intro left right same
  have pair := toLex.injective same
  rw [Prod.mk.injEq, UInt64.toNat_inj, UInt64.toNat_inj] at pair
  rw [CompressedStateEvent.mk.injEq]
  exact pair

/-- Byte arrays are compared byte by byte, so big-endian words as their numbers. -/
instance : LinearOrder CompressedStateEvent := LinearOrder.lift' rank rank_injective

def toBytes : List UInt8 :=
  toBeBytes event.shortstatekey ++ toBeBytes event.shorteventid

def ofBytes (bytes : List UInt8) : CompressedStateEvent where
  shortstatekey := fromBeBytes (bytes.take 8)
  shorteventid := fromBeBytes (bytes.drop 8)

@[simp] theorem length_toBytes : event.toBytes.length = 16 := by
  rw [toBytes, List.length_append, length_toBeBytes, length_toBeBytes]

@[simp] theorem ofBytes_toBytes : ofBytes event.toBytes = event := by
  rw [ofBytes, toBytes, List.take_left' (length_toBeBytes _), List.drop_left' (length_toBeBytes _),
    fromBeBytes_toBeBytes, fromBeBytes_toBeBytes]

theorem toBytes_injective : Function.Injective toBytes := Function.LeftInverse.injective ofBytes_toBytes

theorem take_toBytes : event.toBytes.take 8 = toBeBytes event.shortstatekey := by
  rw [toBytes, List.take_left' (length_toBeBytes _)]

end CompressedStateEvent

def compressStateEvent (shortstatekey : ShortStateKey) (shorteventid : ShortEventId) :
    CompressedStateEvent := ⟨shortstatekey, shorteventid⟩

abbrev CompressedState := Finset CompressedStateEvent

/-- A `BTreeSet` is iterated in ascending order. -/
def CompressedState.iter (state : CompressedState) : List CompressedStateEvent :=
  (HashOrder.ascending CompressedStateEvent.rank CompressedStateEvent.rank_injective).list state

section Iteration

variable {s : CompressedState} {event : CompressedStateEvent}

@[simp] theorem CompressedState.mem_iter : event ∈ s.iter ↔ event ∈ s := HashOrder.mem_list _

theorem CompressedState.nodup_iter : s.iter.Nodup := HashOrder.nodup_list _ _

theorem CompressedState.toFinset_iter (s : CompressedState) : s.iter.toFinset = s := by
  ext event
  rw [List.mem_toFinset, CompressedState.mem_iter]

end Iteration

structure StateDiff where
  parent : Option ShortStateHash
  added : CompressedState
  removed : CompressedState
deriving DecidableEq

def entryBytes (events : List CompressedStateEvent) : List UInt8 :=
  events.flatMap CompressedStateEvent.toBytes

def separator : List UInt8 := toBeBytes 0

def StateDiff.toRow (diff : StateDiff) : List UInt8 :=
  toBeBytes (diff.parent.getD 0) ++ (entryBytes diff.added.iter ++
    if diff.removed = ∅ then [] else separator ++ entryBytes diff.removed.iter)

/-- The loop of `get_statediff` over what is left of the value: a whole entry is read at a time,
    and eight zero bytes in front of one end the additions. A turn takes at least eight bytes,
    so the length of the value bounds the turns. -/
def readEntries : Nat → Bool → List UInt8 → CompressedState × CompressedState →
    CompressedState × CompressedState
  | 0, _, _, found => found
  | turns + 1, addMode, bytes, (added, removed) =>
    if bytes.length < 16 then (added, removed)
    else if addMode ∧ bytes.take 8 = separator then
      readEntries turns false (bytes.drop 8) (added, removed)
    else
      let event := CompressedStateEvent.ofBytes (bytes.take 16)
      if addMode then readEntries turns true (bytes.drop 16) (insert event added, removed)
      else readEntries turns false (bytes.drop 16) (added, insert event removed)

def StateDiff.ofRow {ε : Type} (value : List UInt8) : Outcome ε StateDiff :=
  if value.length < 8 then
    .error (.panic s!"range end index 8 out of range for slice of length {value.length}")
  else
    let word := fromBeBytes (value.take 8)
    let found := readEntries value.length true (value.drop 8) (∅, ∅)
    .ok ⟨if word = 0 then none else some word, found.1, found.2⟩

section RoundTrip

def recordEntries (addMode : Bool) (events : CompressedState)
    (found : CompressedState × CompressedState) : CompressedState × CompressedState :=
  if addMode then (found.1 ∪ events, found.2) else (found.1, found.2 ∪ events)

theorem toBeBytes_ne_separator {word : ShortId} (nonzero : word ≠ 0) : toBeBytes word ≠ separator := by
  intro same
  exact nonzero (toBeBytes_injective same)

variable (turns : Nat)

theorem readEntries_entry (addMode : Bool) (event : CompressedStateEvent) (rest : List UInt8)
    (found : CompressedState × CompressedState) (named : addMode = true → event.shortstatekey ≠ 0) :
    readEntries (turns + 1) addMode (event.toBytes ++ rest) found =
      readEntries turns addMode rest (recordEntries addMode {event} found) := by
  have long : ¬(event.toBytes ++ rest).length < 16 := by
    rw [List.length_append, CompressedStateEvent.length_toBytes]
    omega
  have head : (event.toBytes ++ rest).take 8 = toBeBytes event.shortstatekey := by
    grind [CompressedStateEvent.length_toBytes, CompressedStateEvent.take_toBytes]
  have entry : (event.toBytes ++ rest).take 16 = event.toBytes :=
    List.take_left' (CompressedStateEvent.length_toBytes event)
  have remaining : (event.toBytes ++ rest).drop 16 = rest :=
    List.drop_left' (CompressedStateEvent.length_toBytes event)
  have kept : ¬(addMode = true ∧ (event.toBytes ++ rest).take 8 = separator) := by
    grind [toBeBytes_ne_separator]
  simp only [readEntries, long, if_false, kept, entry, remaining, CompressedStateEvent.ofBytes_toBytes, recordEntries]
  cases addMode with
  | true => simp only [if_true, Finset.insert_eq, Finset.union_comm]
  | false => simp only [Bool.false_eq_true, if_false, Finset.insert_eq, Finset.union_comm]

theorem recordEntries_cons (addMode : Bool) (event : CompressedStateEvent)
    (events : List CompressedStateEvent) (found : CompressedState × CompressedState) :
    recordEntries addMode events.toFinset (recordEntries addMode {event} found) =
      recordEntries addMode (event :: events).toFinset found := by
  grind [List.toFinset_cons, recordEntries]

variable (events : List CompressedStateEvent)

theorem readEntries_entries (turns : Nat) (addMode : Bool) (rest : List UInt8)
    (found : CompressedState × CompressedState) (named : addMode = true → ∀ event ∈ events, event.shortstatekey ≠ 0) :
    readEntries (turns + events.length) addMode (entryBytes events ++ rest) found =
      readEntries turns addMode rest (recordEntries addMode events.toFinset found) := by
  induction events generalizing found with
  | nil =>
    cases addMode <;> simp [entryBytes, recordEntries]
  | cons event events ih =>
    have first : addMode = true → event.shortstatekey ≠ 0 := by
      grind
    have others : addMode = true → ∀ event ∈ events, event.shortstatekey ≠ 0 := by
      grind
    rw [List.length_cons, ← Nat.add_assoc, entryBytes, List.flatMap_cons, List.append_assoc,
      readEntries_entry _ addMode event _ found first]
    rw [← entryBytes, ih _ others, recordEntries_cons]

theorem readEntries_nil (addMode : Bool) (found : CompressedState × CompressedState) :
    readEntries turns addMode [] found = found := by
  cases turns with
  | zero => rfl
  | succ turns => simp [readEntries]

theorem readEntries_separator (rest : List UInt8) (found : CompressedState × CompressedState)
    (long : 8 ≤ rest.length) :
    readEntries (turns + 1) true (separator ++ rest) found = readEntries turns false rest found := by
  grind [length_toBeBytes, separator, readEntries]

theorem length_entryBytes : (entryBytes events).length = 16 * events.length := by
  induction events with
  | nil => rfl
  | cons event events ih =>
    grind [CompressedStateEvent.length_toBytes, entryBytes]

theorem readEntries_sets (added removed : CompressedState) (turns : Nat)
    (named : ∀ event ∈ added, event.shortstatekey ≠ 0)
    (enough : added.iter.length + (1 + removed.iter.length) ≤ turns) :
    readEntries turns true (entryBytes added.iter ++
      if removed = ∅ then [] else separator ++ entryBytes removed.iter) (∅, ∅) = (added, removed) := by
  obtain ⟨spare, rfl⟩ : ∃ spare, turns = spare + removed.iter.length + 1 + added.iter.length :=
    ⟨turns - (removed.iter.length + 1 + added.iter.length), by omega⟩
  rw [readEntries_entries _ _ _ _ _ fun _ event mem => named event (CompressedState.mem_iter.mp mem),
    CompressedState.toFinset_iter]
  by_cases empty : removed = ∅
  · rw [if_pos empty, readEntries_nil, empty]
    simp [recordEntries]
  · rw [if_neg empty]
    have long : 8 ≤ (entryBytes removed.iter).length := by
      grind [CompressedState.toFinset_iter, List.toFinset_nil, List.length_pos_iff, length_entryBytes]
    rw [readEntries_separator _ _ _ long]
    have read := readEntries_entries removed.iter spare false [] (recordEntries true added (∅, ∅))
      (fun adding => absurd adding Bool.false_ne_true)
    rw [List.append_nil] at read
    rw [read, readEntries_nil, CompressedState.toFinset_iter]
    simp [recordEntries]

theorem StateDiff.ofRow_toRow {ε : Type} (diff : StateDiff) (parented : diff.parent ≠ some 0)
    (named : ∀ event ∈ diff.added, event.shortstatekey ≠ 0) :
    (StateDiff.ofRow diff.toRow : Outcome ε StateDiff) = .ok diff := by
  have width : (toBeBytes (diff.parent.getD 0)).length = 8 := length_toBeBytes _
  have head : diff.toRow.take 8 = toBeBytes (diff.parent.getD 0) := List.take_left' width
  have entries : diff.toRow.drop 8 = entryBytes diff.added.iter ++
      if diff.removed = ∅ then [] else separator ++ entryBytes diff.removed.iter :=
    List.drop_left' width
  have enough : diff.added.iter.length + (1 + diff.removed.iter.length) ≤ diff.toRow.length := by
    rw [StateDiff.toRow, List.length_append, List.length_append, width, length_entryBytes]
    split
    · next empty =>
      rw [empty]
      change diff.added.iter.length + (1 + 0) ≤ _
      omega
    · rw [List.length_append, length_entryBytes]
      omega
  have long : ¬diff.toRow.length < 8 := by
    rw [StateDiff.toRow, List.length_append, width]
    omega
  simp only [StateDiff.ofRow, long, if_false, head, fromBeBytes_toBeBytes]
  rw [entries, readEntries_sets _ _ _ named enough]
  obtain ⟨parent, added, removed⟩ := diff
  cases parent with
  | none => rfl
  | some parent =>
    grind

end RoundTrip

end Phantom.Rooms
