import Mathlib.Data.List.Nodup
import Mathlib.Data.List.Perm.Subperm
import Phantom.Lib.LastWins

namespace Phantom.Lib

/-- What the users of a shared cell do: each reads who wrote it last, and later writes it itself. -/
inductive SwapEvent (ι : Type) where
  | read (user : ι) (found : Option ι)
  | write (user : ι)

namespace SwapEvent

variable {ι : Type}

def sight : SwapEvent ι → Option (ι × Option ι)
  | read user found => some (user, found)
  | write _ => none

def written : SwapEvent ι → Option ι
  | read _ _ => none
  | write user => some user

end SwapEvent

namespace Swap

open SwapEvent

variable {ι : Type} {events before : List (SwapEvent ι)} {user other : ι} {found : Option ι}

def cell (events : List (SwapEvent ι)) : Option ι := lastSome written events

def sights (events : List (SwapEvent ι)) : List (ι × Option ι) := events.filterMap sight

def writers (events : List (SwapEvent ι)) : List ι := events.filterMap written

/-- Each user reads the cell once, as it is, and writes it at most once, later. -/
inductive Lawful : List (SwapEvent ι) → Prop where
  | nil : Lawful []
  | read {events : List (SwapEvent ι)} {user : ι} (lawful : Lawful events)
      (fresh : ∀ found, (user, found) ∉ sights events) : Lawful (events ++ [.read user (cell events)])
  | write {events : List (SwapEvent ι)} {user : ι} {found : Option ι} (lawful : Lawful events)
      (sighted : (user, found) ∈ sights events) (fresh : user ∉ writers events) :
      Lawful (events ++ [.write user])

/-- Nobody reads the cell between the read and the write of another user. -/
def Apart (events : List (SwapEvent ι)) : Prop :=
  ∀ before user found, before ++ [.read user found] <+: events → ∀ sighted ∈ sights before, sighted.1 ∈ writers before

def Complete (events : List (SwapEvent ι)) : Prop := ∀ sighted ∈ sights events, sighted.1 ∈ writers events

def Replaced (events : List (SwapEvent ι)) (user : ι) : Prop := ∃ next, (next, some user) ∈ sights events

@[simp] theorem sights_read : sights (events ++ [.read user found]) = sights events ++ [(user, found)] := by
  rw [sights, List.filterMap_append, ← sights]
  rfl

@[simp] theorem sights_write : sights (events ++ [.write user]) = sights events := by
  rw [sights, List.filterMap_append, ← sights]
  exact List.append_nil _

@[simp] theorem writers_read : writers (events ++ [.read user found]) = writers events := by
  rw [writers, List.filterMap_append, ← writers]
  exact List.append_nil _

@[simp] theorem writers_write : writers (events ++ [.write user]) = writers events ++ [user] := by
  rw [writers, List.filterMap_append, ← writers]
  rfl

@[simp] theorem cell_read : cell (events ++ [.read user found]) = cell events := by
  rw [cell, lastSome_concat]
  exact Option.none_or

@[simp] theorem cell_write : cell (events ++ [.write user]) = some user := by
  rw [cell, lastSome_concat]
  exact Option.some_or

theorem mem_writers_of_cell (wrote : cell events = some user) : user ∈ writers events := by
  obtain ⟨event, mem, gives⟩ := exists_of_lastSome wrote
  exact List.mem_filterMap.mpr ⟨event, mem, gives⟩

theorem cell_ne_none (wrote : user ∈ writers events) : cell events ≠ none := by
  intro unwritten
  obtain ⟨event, mem, gives⟩ := List.mem_filterMap.mp wrote
  cases gives.symm.trans (lastSome_eq_none.mp unwritten event mem)

theorem Apart.of_append {later : List (SwapEvent ι)} (apart : Apart (events ++ later)) : Apart events :=
  fun before user found begins => apart before user found (begins.trans (List.prefix_append _ _))

theorem apart_iff_take :
    Apart events ↔ ∀ index < events.length, (events[index]?.bind sight).isSome → Complete (events.take index) := by
  constructor
  · intro apart index inside sighted
    rw [List.getElem?_eq_getElem inside, Option.bind_some] at sighted
    have begins : events.take index ++ [events[index]] <+: events := by
      rw [List.take_append_getElem inside]
      exact List.take_prefix _ _
    cases event : events[index] with
    | read user found => exact apart _ user found (event ▸ begins)
    | write user =>
      rw [event] at sighted
      cases sighted
  · rintro complete before user found ⟨later, rfl⟩
    have done := complete before.length (by simp) (by simp [sight])
    rw [List.append_assoc, List.take_left] at done
    exact done

instance instDecidableComplete [DecidableEq ι] (events : List (SwapEvent ι)) : Decidable (Complete events) :=
  inferInstanceAs (Decidable (∀ sighted ∈ sights events, sighted.1 ∈ writers events))

instance instDecidableApart [DecidableEq ι] (events : List (SwapEvent ι)) : Decidable (Apart events) :=
  decidable_of_iff _ apart_iff_take.symm

namespace Lawful

theorem of_append {later : List (SwapEvent ι)} (lawful : Lawful (events ++ later)) : Lawful events := by
  induction later using List.reverseRecOn with
  | nil => rwa [List.append_nil] at lawful
  | append_singleton later event ih =>
    apply ih
    rw [← List.append_assoc] at lawful
    generalize whole : events ++ later ++ [event] = all at lawful
    cases lawful with
    | nil => simp at whole
    | read lawful _ | write lawful _ _ => rwa [(List.append_inj' whole rfl).1]

section

variable (lawful : Lawful events)
include lawful

theorem of_prefix (begins : before <+: events) : Lawful before := by
  obtain ⟨later, rfl⟩ := begins
  exact lawful.of_append

theorem nodup_readers : ((sights events).map Prod.fst).Nodup := by
  induction lawful with
  | nil => exact List.nodup_nil
  | @read events user lawful fresh ih =>
    grind [sights_read]
  | write _ _ _ ih => rwa [sights_write]

theorem nodup_writers : (writers events).Nodup := by
  induction lawful with
  | nil => exact List.nodup_nil
  | read _ _ ih => rwa [writers_read]
  | write _ _ fresh ih =>
    grind [writers_write]

theorem sighted_of_written (wrote : user ∈ writers events) : user ∈ (sights events).map Prod.fst := by
  induction lawful with
  | nil => cases wrote
  | read _ _ ih =>
    grind [writers_read, sights_read]
  | write _ sighted _ ih =>
    grind [writers_write, sights_write]

theorem found_mem (sighted : (user, found) ∈ sights events) : found ∈ none :: (writers events).map some := by
  induction lawful with
  | nil => cases sighted
  | @read events reader lawful fresh ih =>
    rw [sights_read, List.mem_append, List.mem_singleton] at sighted
    rw [writers_read]
    rcases sighted with old | new
    · exact ih old
    · cases new
      cases wrote : cell events with
      | none => exact List.mem_cons_self
      | some writer =>
        grind [mem_writers_of_cell]
  | write _ _ _ ih =>
    grind [sights_write, writers_write]

theorem exists_first (some_read : sights events ≠ []) : ∃ first, (first, none) ∈ sights events := by
  induction lawful with
  | nil => exact absurd rfl some_read
  | @read events reader lawful fresh ih =>
    rw [sights_read]
    by_cases nobody : sights events = []
    · have unwritten : cell events = none := by
        cases wrote : cell events with
        | none => rfl
        | some writer =>
          have sighted := lawful.sighted_of_written (mem_writers_of_cell wrote)
          rw [nobody] at sighted
          cases sighted
      grind
    · grind
  | write _ _ _ ih =>
    rw [sights_write] at some_read ⊢
    exact ih some_read

theorem unwritten_of_fresh (fresh : ∀ found, (user, found) ∉ sights events) : user ∉ writers events := by
  intro wrote
  obtain ⟨⟨reader, found⟩, sighted, rfl⟩ := List.mem_map.mp (lawful.sighted_of_written wrote)
  exact fresh found sighted

theorem pending_found (apart : Apart events) (sighted : (user, found) ∈ sights events) (pending : user ∉ writers events) :
    found = cell events ∧ ∀ other ∈ sights events, other.1 ∉ writers events → other.1 = user := by
  induction lawful with
  | nil => cases sighted
  | @read events reader lawful fresh ih =>
    have complete : Complete events := apart events reader (cell events) (List.prefix_refl _)
    rw [writers_read] at pending ⊢
    have new : ∀ other ∈ sights (events ++ [.read reader (cell events)]), other.1 ∉ writers events →
        other = (reader, cell events) := by
      intro other mem pending
      rw [sights_read, List.mem_append, List.mem_singleton] at mem
      exact mem.resolve_left fun earlier => pending (complete other earlier)
    cases new _ sighted pending
    exact ⟨cell_read.symm, fun other mem pending => by rw [new other mem pending]⟩
  | write lawful written fresh ih =>
    rw [sights_write] at sighted
    rw [writers_write, List.mem_append, List.mem_singleton, not_or] at pending
    have same := (ih apart.of_append sighted pending.1).2 _ written fresh
    exact absurd same.symm pending.2

/-- Where no two users found the same, nobody read the cell while another was about to write it. -/
theorem apart_of_nodup (nodup : ((sights events).map Prod.snd).Nodup) : Apart events := by
  intro before user found begins sighted mem
  have lawfulRead := lawful.of_prefix begins
  have lawfulBefore := lawfulRead.of_append
  have nodupRead : ((sights (before ++ [.read user found])).map Prod.snd).Nodup :=
    nodup.sublist ((begins.sublist.filterMap sight).map Prod.snd)
  have known : (sights (before ++ [.read user found])).map Prod.snd ⊆ none :: (writers before).map some := by
    grind [found_mem, writers_read]
  have few := (nodupRead.subperm known).length_le
  have wrote : List.Subperm (writers before) ((sights before).map Prod.fst) :=
    lawfulBefore.nodup_writers.subperm fun _ => lawfulBefore.sighted_of_written
  have all : (writers before).Perm ((sights before).map Prod.fst) := by
    grind [List.Subperm.perm_of_length_le, sights_read]
  exact all.mem_iff.mpr (List.mem_map_of_mem mem)

theorem pending_of_last (last : cell events = some user) (sighted : (other, some user) ∈ sights events) :
    other ∉ writers events := by
  induction lawful with
  | nil => cases sighted
  | read lawful fresh ih =>
    grind [sights_read, cell_read, writers_read, unwritten_of_fresh]
  | write lawful _ fresh _ =>
    rw [sights_write] at sighted
    rw [cell_write] at last
    have wrote := lawful.found_mem sighted
    grind

theorem not_replaced_of_last (complete : Complete events) (last : cell events = some user) :
    ¬ Replaced events user := by
  rintro ⟨next, sighted⟩
  exact lawful.pending_of_last last sighted (complete _ sighted)

end

end Lawful

/-- What a user wrote was made from what it had read, which was made from what its writer had read, and so on. -/
inductive Carries (events : List (SwapEvent ι)) : ι → ι → Prop where
  | self (user : ι) : Carries events user user
  | found {user other earlier : ι} (sighted : (user, some other) ∈ sights events)
    (carries : Carries events other earlier) :
      Carries events user earlier

section Carries

variable {earlier : ι}

theorem Carries.mono {later : List (SwapEvent ι)} (carries : Carries events user earlier)
    (grown : sights events ⊆ sights later) : Carries later user earlier := by
  induction carries with
  | self user => exact .self user
  | found sighted _ ih => exact .found (grown sighted) ih

theorem Carries.replaced (carries : Carries events user earlier) : user = earlier ∨ Replaced events earlier := by
  induction carries with
  | self => exact Or.inl rfl
  | @found user other earlier sighted carries ih =>
    rcases ih with rfl | replaced
    · exact Or.inr ⟨user, sighted⟩
    · exact Or.inr replaced

theorem Carries.trans (left : Carries events user other) (right : Carries events other earlier) :
    Carries events user earlier := by
  induction left with
  | self => exact right
  | found sighted _ ih => exact .found sighted (ih right)

section

variable (lawful : Lawful events)
include lawful

theorem Lawful.found_unique {left right : Option ι} (leftSighted : (user, left) ∈ sights events)
    (rightSighted : (user, right) ∈ sights events) : left = right := by
  have same := List.inj_on_of_nodup_map lawful.nodup_readers leftSighted rightSighted rfl
  exact (Prod.mk.inj same).2

theorem Carries.linear (left : Carries events user other) (right : Carries events user earlier) :
    Carries events other earlier ∨ Carries events earlier other := by
  induction left with
  | self user => exact Or.inl right
  | @found user next other sighted carries ih =>
    cases right with
    | self => exact Or.inr (.found sighted carries)
    | found sightedToo carriesToo =>
      grind [Lawful.found_unique]

theorem Lawful.carries_of_apart (apart : Apart events) (last : cell events = some user) :
    ∀ writer ∈ writers events, Carries events user writer := by
  induction lawful generalizing user with
  | nil => cases last
  | read lawful fresh ih =>
    grind [cell_read, writers_read, Carries.mono, Apart.of_append, sights_read]
  | @write events author found lawful sighted fresh ih =>
    intro writer wrote
    rw [cell_write] at last
    cases last
    rw [writers_write, List.mem_append, List.mem_singleton] at wrote
    rcases wrote with earlier | rfl
    · have read := (lawful.pending_found apart.of_append sighted fresh).1
      cases wrote : cell events with
      | none => exact absurd wrote (cell_ne_none earlier)
      | some before =>
        rw [wrote] at read
        subst read
        have sightedToo : (author, some before) ∈ sights (events ++ [.write author]) := by rwa [sights_write]
        apply Carries.found sightedToo
        grind [Carries.mono, Apart.of_append, sights_write]
    · exact .self writer

end

variable [DecidableEq ι]

section

variable (lawful : Lawful events)
include lawful

theorem Lawful.idxOf_lt (sighted : (user, some other) ∈ sights events) (wrote : user ∈ writers events) :
    (writers events).idxOf other < (writers events).idxOf user := by
  induction lawful with
  | nil => cases wrote
  | read lawful fresh ih =>
    grind [sights_read, writers_read, Lawful.unwritten_of_fresh]
  | write lawful _ fresh ih =>
    rw [sights_write] at sighted
    have read := lawful.found_mem sighted
    grind [writers_write]

section

variable (complete : Complete events)
include complete

theorem Carries.idxOf_le (carries : Carries events user earlier) :
    (writers events).idxOf earlier ≤ (writers events).idxOf user := by
  induction carries with
  | self user => exact Nat.le_refl _
  | found sighted _ ih =>
    have before := lawful.idxOf_lt sighted (complete _ sighted)
    omega

theorem Lawful.apart_of_carries
    (carried : ∀ writer ∈ writers events, Carries events user writer) : Apart events := by
  apply lawful.apart_of_nodup
  apply List.Nodup.map_on ?_ lawful.nodup_readers.of_map
  rintro ⟨left, found⟩ leftSighted ⟨right, foundToo⟩ rightSighted rfl
  have apartFrom : ∀ {reader another : ι}, (reader, found) ∈ sights events → (another, found) ∈ sights events →
      Carries events reader another → reader = another := by
    intro reader another sighted sightedToo carries
    cases carries with
    | self => rfl
    | @found _ next _ read carriesNext =>
      cases lawful.found_unique sighted read
      have later := lawful.idxOf_lt sightedToo (complete _ sightedToo)
      have earlier := carriesNext.idxOf_le lawful complete
      omega
  have same : left = right := by
    rcases (carried left (complete _ leftSighted)).linear lawful
      (carried right (complete _ rightSighted)) with one | other
    · exact apartFrom leftSighted rightSighted one
    · exact (apartFrom rightSighted leftSighted other).symm
  rw [same]

theorem Lawful.carries_of_replaced (last : cell events = some user)
    (replaced : ∀ sighted ∈ sights events, cell events = some sighted.1 ∨ Replaced events sighted.1) :
    ∀ writer ∈ writers events, Carries events user writer := by
  intro writer wrote
  -- on how many writes come later: who found a writer wrote after it
  induction later : (writers events).length - (writers events).idxOf writer using Nat.strong_induction_on
    generalizing writer with
  | _ later ih =>
    obtain ⟨sighted, mem, rfl⟩ := List.mem_map.mp (lawful.sighted_of_written wrote)
    rcases replaced sighted mem with same | ⟨next, found⟩
    · cases last.symm.trans same
      exact .self _
    · have wroteNext : next ∈ writers events := complete _ found
      have before := lawful.idxOf_lt found wroteNext
      have inside := List.idxOf_lt_length_of_mem wroteNext
      exact (ih _ (by omega) next wroteNext rfl).trans (.found found (.self _))

/-- Once all users are done, each but the last was read by somebody exactly if they kept apart. -/
theorem Lawful.replaced_iff_apart :
    (∀ sighted ∈ sights events, cell events = some sighted.1 ∨ Replaced events sighted.1) ↔ Apart events := by
  constructor
  · intro replaced
    cases last : cell events with
    | none =>
      have nobody : sights events = [] :=
        List.eq_nil_iff_forall_not_mem.mpr fun sighted mem => cell_ne_none (complete sighted mem) last
      exact lawful.apart_of_nodup (by rw [nobody]; exact List.nodup_nil)
    | some user => exact lawful.apart_of_carries complete (lawful.carries_of_replaced complete last replaced)
  · intro apart sighted mem
    cases last : cell events with
    | none => exact absurd last (cell_ne_none (complete sighted mem))
    | some user =>
      have carries := lawful.carries_of_apart apart last sighted.1 (complete sighted mem)
      exact carries.replaced.imp_left (congrArg some)

end

end

end Carries

end Swap

end Phantom.Lib
