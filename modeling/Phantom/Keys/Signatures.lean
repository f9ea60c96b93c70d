import Phantom.Keys.Signing
import Phantom.Lib.Swap

namespace Phantom.Keys

open Phantom.Lib Phantom.Matrix

abbrev SignWorld := World SignReport SignTables

abbrev SignPool := Pool Sign Unit SignReport SignTables (Except SignError Unit)

abbrev KeyName := UserId × String

def swapNext (key : KeyName) (events : List (SwapEvent ℕ)) (entry : ℕ × SignReport) : List (SwapEvent ℕ) :=
  match entry.2 with
  | .looked call row => if call.key = key ∧ (call.edited row).isOk then events ++
    [.read entry.1 (Swap.cell events)] else events
  | .put call _ => if call.key = key then events ++ [.write entry.1] else events
  | .drew | .listed | .noted _ _ => events

def swaps (key : KeyName) (trace : List (ℕ × SignReport)) : List (SwapEvent ℕ) := trace.foldl (swapNext key) []

inductive Shape : List SignReport → Prop where
  | nil : Shape []
  | looked (call : Sign) (row : Option (Option Json)) : Shape [.looked call row]
  | put {call : Sign} {row : Option (Option Json)} {value : Json} (accepted : call.edited row = .ok value) :
      Shape [.looked call row, .put call value]
  | marked {past : List SignReport} {call : Sign} {row : Option (Option Json)} {value : Json} {more : List SignReport}
      {report : SignReport} (shape : Shape past) (front : past = .looked call row :: .put call value :: more)
      (mark : report = .drew ∨ report = .listed ∨ ∃ changeId userId, report = .noted changeId userId) :
      Shape (past ++ [report])

section Shapes

variable {start : SignTables} {w : SignWorld} {past : List SignReport} {call other : Sign} {row : Option (Option Json)}
  {value : Json} {job : ℕ}

theorem shape_of_legal {t : SignTables} {report : SignReport} (shape : Shape past)
    (legal : signJournal.Legal past t report) : Shape (past ++ [report]) := by
  cases report with
  | looked call row =>
    obtain ⟨rfl, _⟩ := legal
    exact .looked call row
  | put call value =>
    obtain ⟨row, rfl, accepted⟩ := legal
    exact .put accepted
  | drew =>
    obtain ⟨_, _, _, _, front⟩ := legal
    exact .marked shape front (Or.inl rfl)
  | listed =>
    obtain ⟨_, _, _, _, front⟩ := legal
    exact .marked shape front (Or.inr (Or.inl rfl))
  | noted changeId userId =>
    obtain ⟨_, _, _, _, front⟩ := legal
    exact .marked shape front (Or.inr (Or.inr ⟨changeId, userId, rfl⟩))

theorem shape_own (written : signJournal.Written start w) (job : ℕ) : Shape (w.own job) :=
  written.own_induction Shape .nil fun _ _ _ shape legal => shape_of_legal shape legal

theorem Shape.looked_eq (shape : Shape past) (looked : .looked call row ∈ past) :
    past.head? = some (.looked call row) := by
  induction shape with
  | nil => cases looked
  | looked =>
    rw [List.mem_singleton.mp looked]
    rfl
  | put | @marked past _ _ _ _ report shape front mark ih =>
    grind

theorem Shape.put_eq (shape : Shape past) (put : .put call value ∈ past) :
    ∃ row more, past = .looked call row :: .put call value :: more ∧ call.edited row = .ok value := by
  induction shape with
  | nil => cases put
  | looked => simp at put
  | @put author row key accepted | @marked past _ _ _ _ report shape front mark ih =>
    grind

section

variable (written : signJournal.Written start w)
include written

theorem looked_of_put (put : (job, .put call value) ∈ w.trace) :
    ∃ row, (job, .looked call row) ∈ w.trace ∧ call.edited row = .ok value := by
  obtain ⟨row, more, own, accepted⟩ := (shape_own written job).put_eq (World.mem_own.mpr put)
  exact ⟨row, World.mem_own.mp (by simp [own]), accepted⟩

theorem looked_unique {another : Option (Option Json)} (left : (job, .looked call row) ∈ w.trace)
    (right : (job, .looked other another) ∈ w.trace) : call = other ∧ row = another := by
  have leftHead := (shape_own written job).looked_eq (World.mem_own.mpr left)
  grind [Shape.looked_eq, shape_own, World.mem_own]

theorem put_unique {another : Json} (left : (job, .put call value) ∈ w.trace)
    (right : (job, .put other another) ∈ w.trace) : call = other ∧ value = another := by
  obtain ⟨_, _, leftOwn, _⟩ := (shape_own written job).put_eq (World.mem_own.mpr left)
  grind [Shape.put_eq, shape_own, World.mem_own]

end

end Shapes

section Versions

variable {start : SignTables} {world w : SignWorld} {key : KeyName} {call : Sign} {row : Option (Option Json)}
  {value : Json} {job : ℕ} {found : Option ℕ}

def Version (start : SignTables) (key : KeyName) (trace : List (ℕ × SignReport)) (row : Option (Option Json)) :
    Option ℕ → Prop
  | none => row = start.keyidKey key
  | some writer => ∃ call value, (writer, .put call value) ∈ trace ∧ call.key = key ∧ row = some (some value)

theorem Version.mono {trace more : List (ℕ × SignReport)} (version : Version start key trace row found)
    (grown : trace ⊆ more) :
    Version start key more row found := by
  cases found with
  | none => exact version
  | some writer =>
    obtain ⟨call, value, put, same, stored⟩ := version
    exact ⟨call, value, grown put, same, stored⟩

structure Versions (start : SignTables) (key : KeyName) (world : SignWorld) : Prop where
  lawful : Swap.Lawful (swaps key world.trace)
  stored : Version start key world.trace (world.store.keyidKey key) (Swap.cell (swaps key world.trace))
  sighted : ∀ job found, (job, found) ∈ Swap.sights (swaps key world.trace) → ∃ call row value,
    (job, .looked call row) ∈ world.trace ∧ call.key = key ∧ call.edited row = .ok value ∧
    Version start key world.trace row found
  looked : ∀ job call row value, (job, .looked call row) ∈ world.trace → call.key = key → call.edited row = .ok value →
    ∃ found, (job, found) ∈ Swap.sights (swaps key world.trace)
  wrote : ∀ job, job ∈ Swap.writers (swaps key world.trace) ↔
    ∃ call value, (job, .put call value) ∈ world.trace ∧ call.key = key

variable {report : SignReport} {t : SignTables}

theorem swaps_after : swaps key (w.after job [report] t).trace = swapNext key (swaps key w.trace) (job, report) := by
  rw [swaps, World.after_trace, List.foldl_append, ← swaps]
  rfl

section

variable (versions : Versions start key w)
include versions

theorem Versions.elsewhere (same : swapNext key (swaps key w.trace) (job, report) = swaps key w.trace)
    (row : t.keyidKey key = w.store.keyidKey key)
    (reads : ∀ call row value, report = .looked call row → call.key = key → call.edited row ≠ .ok value)
    (writes : ∀ call value, report = .put call value → call.key ≠ key) :
    Versions start key (w.after job [report] t) := by
  have grown : w.trace ⊆ (w.after job [report] t).trace := List.subset_append_left _ _
  have entries : ∀ entry, entry ∈ (w.after job [report] t).trace ↔ entry ∈ w.trace ∨ entry = (job, report) := by
    simp
  constructor
  · rw [swaps_after, same]
    exact versions.lawful
  · rw [swaps_after, same, World.after_store, row]
    exact versions.stored.mono grown
  · grind [swaps_after, Versions.sighted, Version.mono]
  · grind [swaps_after, Versions.looked]
  · grind [swaps_after, Versions.wrote]

theorem Versions.read (unread : w.own job = []) (named : call.key = key)
    (accepted : call.edited (w.store.keyidKey call.key) = .ok value) :
    Versions start key (w.after job [.looked call (w.store.keyidKey call.key)] w.store) := by
  subst named
  have grown : w.trace ⊆ (w.after job [.looked call (w.store.keyidKey call.key)] w.store).trace :=
    List.subset_append_left _ _
  have swap : swapNext call.key (swaps call.key w.trace) (job, .looked call (w.store.keyidKey call.key)) =
      swaps call.key w.trace ++ [.read job (Swap.cell (swaps call.key w.trace))] := by
    simp [swapNext, accepted, Except.isOk, Except.toBool]
  have fresh : ∀ found, (job, found) ∉ Swap.sights (swaps call.key w.trace) := by
    intro found sighted
    obtain ⟨_, _, _, looked, _⟩ := versions.sighted job found sighted
    have inside := World.mem_own.mpr looked
    rw [unread] at inside
    cases inside
  constructor
  · rw [swaps_after, swap]
    exact .read versions.lawful fresh
  · rw [swaps_after, swap, Swap.cell_read]
    exact versions.stored.mono grown
  · intro reader found sighted
    rw [swaps_after, swap, Swap.sights_read, List.mem_append, List.mem_singleton] at sighted
    rcases sighted with old | new
    · grind [Versions.sighted, Version.mono]
    · cases new
      exact ⟨call, _, value, List.mem_append_right _ (List.mem_singleton_self _), rfl, accepted,
        versions.stored.mono grown⟩
  · intro reader other row value looked same edited
    rw [swaps_after, swap, Swap.sights_read]
    rcases List.mem_append.mp looked with old | new
    · grind [Versions.looked]
    · grind
  · intro writer
    rw [swaps_after, swap, Swap.writers_read, versions.wrote]
    simp

theorem Versions.write (own : w.own job = [.looked call row]) (named : call.key = key)
    (accepted : call.edited row = .ok value) :
    Versions start key (w.after job [.put call value] (signJournal.record w.store (.put call value))) := by
  have grown : w.trace ⊆ (w.after job [.put call value] (signJournal.record w.store (.put call value))).trace :=
    List.subset_append_left _ _
  have swap : swapNext key (swaps key w.trace) (job, .put call value) = swaps key w.trace ++ [.write job] := if_pos named
  have looked : (job, .looked call row) ∈ w.trace := World.mem_own.mp (own ▸ List.mem_singleton_self _)
  have fresh : job ∉ Swap.writers (swaps key w.trace) := by
    intro wrote
    obtain ⟨_, _, put, _⟩ := (versions.wrote job).mp wrote
    have inside := World.mem_own.mpr put
    rw [own] at inside
    cases List.mem_singleton.mp inside
  obtain ⟨found, sighted⟩ := versions.looked job call row value looked named accepted
  constructor
  · rw [swaps_after, swap]
    exact .write versions.lawful sighted fresh
  · rw [swaps_after, swap, Swap.cell_write]
    refine ⟨call, value, List.mem_append_right _ (List.mem_singleton_self _), named, ?_⟩
    rw [← named]
    exact Function.update_self _ _ _
  · grind [swaps_after, Swap.sights_write, Versions.sighted, Version.mono]
  · intro reader other row value read same edited
    rw [swaps_after, swap, Swap.sights_write]
    rcases List.mem_append.mp read with old | new
    · exact versions.looked reader other row value old same edited
    · cases List.mem_singleton.mp new
  · intro writer
    rw [swaps_after, swap, Swap.writers_write, List.mem_append, List.mem_singleton, versions.wrote]
    constructor
    · rintro (⟨other, another, put, same⟩ | rfl)
      · exact ⟨other, another, grown put, same⟩
      · exact ⟨call, value, List.mem_append_right _ (List.mem_singleton_self _), named⟩
    · rintro ⟨other, another, put, same⟩
      rcases List.mem_append.mp put with old | new
      · exact Or.inl ⟨other, another, old, same⟩
      · cases List.mem_singleton.mp new
        exact Or.inr rfl

end

theorem versions_of_written (written : signJournal.Written start w) (key : KeyName) : Versions start key w := by
  induction written with
  | blank =>
    exact ⟨.nil, rfl, fun _ _ sighted => absurd sighted List.not_mem_nil, fun _ _ _ _ looked =>
      absurd looked List.not_mem_nil,
      fun _ => ⟨fun wrote => absurd wrote List.not_mem_nil, fun ⟨_, _, put, _⟩ => absurd put List.not_mem_nil⟩⟩
  | @entry w job report written legal ih =>
    cases report with
    | looked call row =>
      obtain ⟨unread, rfl⟩ := legal
      by_cases named : call.key = key
      · cases accepted : call.edited (w.store.keyidKey call.key) with
        | ok value => exact ih.read unread named accepted
        | error error =>
          apply ih.elsewhere _ rfl
          · grind
          · intro _ _ same
            cases same
          · simp [swapNext, accepted, Except.isOk, Except.toBool]
      · apply ih.elsewhere _ rfl
        · grind
        · intro _ _ same
          cases same
        · simp [swapNext, named]
    | put call value =>
      obtain ⟨row, own, accepted⟩ := legal
      by_cases named : call.key = key
      · exact ih.write own named accepted
      · apply ih.elsewhere
        · simp [swapNext, named]
        · exact Function.update_of_ne (Ne.symm named) _ _
        · intro _ _ _ same
          cases same
        · grind
    | drew | listed | noted changeId userId =>
      apply ih.elsewhere
      · rfl
      · rfl
      · intro _ _ _ same
        cases same
      · intro _ _ same
        cases same

end Versions

end Phantom.Keys
