import Phantom.Sending.Edus

namespace Phantom.Sending

open Phantom.Lib Phantom.Matrix

section Collect

variable {α β : Type} {userId : UserId} {value : α} {map taken : List (UserId × α)} {entry : UserId × α}
variable {limit highest : ℕ} {rows : List (ℕ × UserId × Option α)} {shown : UserId → Bool}

/-- What a scan holds after the rows. -/
def assignAll (rows : List (ℕ × UserId × Option α)) : List (UserId × α) :=
  rows.foldl (fun map row => row.2.2.elim map fun value => assign row.2.1 value map) []

theorem assignAll_append (before : List (ℕ × UserId × Option α)) (row : ℕ × UserId × Option α) :
    assignAll (before ++ [row]) =
    row.2.2.elim (assignAll before) (fun value => assign row.2.1 value (assignAll before)) := by
  rw [assignAll, List.foldl_append, ← assignAll]
  rfl

variable {row : ℕ × UserId × Option α} {before rest : List (ℕ × UserId × Option α)} {count : ℕ}

end Collect

namespace Sources

variable {Receipt Presence : Type} (sources : Sources Receipt Presence) (turns : List RoomId)

/-- A room's scan reads a row in each of its turns. -/
def receiptRead (roomId : RoomId) : List (ℕ × UserId × Option Receipt) :=
  (sources.receiptRows roomId).take (turns.count roomId)

variable {sources turns} {scan next : ReceiptScan Receipt} {roomId : RoomId} {userId : UserId}

/-- What the scans hold after the turns. -/
structure ScanInv (sources : Sources Receipt Presence) (turns : List RoomId) (scan : ReceiptScan Receipt) : Prop where
  read : ∀ roomId, (scan.rooms roomId).read = assignAll (sources.receiptRead turns roomId)
  rest : ∀ roomId, (scan.rooms roomId).rest = [] ∨
    (scan.rooms roomId).rest = (sources.receiptRows roomId).drop (turns.count roomId)
  highest : ∀ count, count ≤ scan.highest ↔ count ≤ sources.latestEducount ∨
    ∃ roomId ∈ sources.serverRooms, ∃ row ∈ sources.receiptRead turns roomId, count ≤ row.1

theorem scanInv_start : ScanInv sources [] sources.startScan where
  read _ := by simp [startScan, receiptRead, assignAll]
  rest _ := Or.inr (by simp [startScan])
  highest _ := by simp [startScan, receiptRead]

theorem receiptRead_turn {row : ℕ × UserId × Option Receipt} {rest : List (ℕ × UserId × Option Receipt)}
    (rows : (sources.receiptRows roomId).drop (turns.count roomId) = row :: rest) :
    sources.receiptRead (turns ++ [roomId]) roomId = sources.receiptRead turns roomId ++ [row] ∧
      (sources.receiptRows roomId).drop ((turns ++ [roomId]).count roomId) = rest := by
  have count : (turns ++ [roomId]).count roomId = turns.count roomId + 1 := by simp
  unfold receiptRead
  rw [count, ← List.drop_drop, rows]
  refine ⟨?_, rfl⟩
  rw [List.take_add, rows]
  rfl

theorem receiptRead_other {other : RoomId} (ne : other ≠ roomId) :
    (turns ++ [roomId]).count other = turns.count other := by
  simp [List.count_append, Ne.symm ne]

theorem ScanInv.turn (inv : ScanInv sources turns scan) (room : roomId ∈ sources.serverRooms)
    {row : ℕ × UserId × Option Receipt} {rest left : List (ℕ × UserId × Option Receipt)}
    {counted : List (RoomId × UserId)} (rows : (scan.rooms roomId).rest = row :: rest) (kept : left = [] ∨ left = rest) :
    ScanInv sources (turns ++ [roomId]) ⟨counted, max scan.highest row.1, Function.update scan.rooms roomId
      ⟨left, row.2.2.elim (scan.rooms roomId).read fun value => assign row.2.1 value (scan.rooms roomId).read⟩⟩ := by
  have dropped : (sources.receiptRows roomId).drop (turns.count roomId) = row :: rest := by
    rcases inv.rest roomId with empty | dropped
    · rw [rows] at empty
      cases empty
    · rw [← dropped, rows]
  obtain ⟨read, remaining⟩ := receiptRead_turn dropped
  have others : ∀ other, other ≠ roomId →
      sources.receiptRead (turns ++ [roomId]) other = sources.receiptRead turns other := by
    intro other ne
    rw [receiptRead, receiptRead_other ne, receiptRead]
  constructor
  · intro other
    by_cases same : other = roomId
    · subst same
      rw [read, assignAll_append, ← inv.read]
      simp
    · simpa [same, others other same] using inv.read other
  · intro other
    by_cases same : other = roomId
    · subst same
      rw [remaining]
      simpa using kept
    · simpa [same, receiptRead_other same] using inv.rest other
  · intro count
    rw [le_max_iff, inv.highest]
    constructor
    · rintro ((below | ⟨other, listed, met, mem, reached⟩) | reached)
      · exact Or.inl below
      · by_cases same : other = roomId
        · subst same
          exact Or.inr ⟨other, listed, met, by rw [read]; exact List.mem_append_left _ mem, reached⟩
        · exact Or.inr ⟨other, listed, met, by rw [others other same]; exact mem, reached⟩
      · exact Or.inr ⟨roomId, room, row, by rw [read]; exact List.mem_append_right _ (List.mem_singleton_self _), reached⟩
    · rintro (below | ⟨other, listed, met, mem, reached⟩)
      · exact Or.inl (Or.inl below)
      · by_cases same : other = roomId
        · subst same
          rw [read] at mem
          rcases List.mem_append.mp mem with earlier | last
          · exact Or.inl (Or.inr ⟨other, listed, met, earlier, reached⟩)
          · rw [List.mem_singleton.mp last] at reached
            exact Or.inr reached
        · rw [others other same] at mem
          exact Or.inl (Or.inr ⟨other, listed, met, mem, reached⟩)

theorem scanInv_readNext (inv : ScanInv sources turns scan) (room : roomId ∈ sources.serverRooms)
    (stepped : scan.readNext roomId = some next) : ScanInv sources (turns ++ [roomId]) next := by
  unfold ReceiptScan.readNext at stepped
  split at stepped
  · cases stepped
  · next rows =>
    cases stepped
    exact inv.turn room rows (Or.inr rfl)
  · next rows =>
    dsimp only at stepped
    split at stepped
    · cases stepped
      exact inv.turn room rows (Or.inr rfl)
    · cases stepped
      refine inv.turn room rows ?_
      split
      · exact Or.inl rfl
      · exact Or.inr rfl

theorem ScanInv.run {later : List RoomId} (inv : ScanInv sources turns scan)
    (run : Run (fun scan roomId next => roomId ∈ sources.serverRooms ∧ scan.readNext roomId = some next)
      scan later next) : ScanInv sources (turns ++ later) next := by
  induction run generalizing turns with
  | nil => simpa using inv
  | cons step _ ih => simpa using ih (scanInv_readNext inv step.1 step.2)

theorem Scanned.inv (scanned : sources.Scanned turns scan) : ScanInv sources turns scan := scanInv_start.run scanned.1

end Sources

namespace Sample

def member (index : ℕ) : UserId := ⟨String.ofList [Char.ofNat (index + 1000)]⟩

end Sample

end Phantom.Sending
