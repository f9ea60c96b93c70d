import Phantom.Keys.OneTime
import Phantom.Lib.LastWins

namespace Phantom.Keys

open Phantom.Lib Phantom.Matrix Phantom.Accounts

variable {dev other : UserDeviceId} {kid : OneTimeKeyId} {algorithm : OneTimeKeyAlgorithm}

def OneTimeKeyId.escaped (kid : OneTimeKeyId) : List Char :=
  kid.algorithm.asStr.toList ++ ':' :: kid.keyName.toList.flatMap escapeChar

theorem jsonString_chars (kid : OneTimeKeyId) : jsonString kid.chars = '"' :: (kid.escaped ++ ['"']) := by
  have colon : escapeChar ':' = [':'] := by decide
  rw [jsonString, OneTimeKeyId.chars, List.flatMap_append, kid.plain.flatMap_escapeChar, List.flatMap_cons, colon]
  rfl

theorem chars_injective : Function.Injective OneTimeKeyId.chars := by
  intro left right same
  obtain ⟨leftAlgorithm, leftName, leftFree, leftPlain⟩ := left
  obtain ⟨rightAlgorithm, rightName, rightFree, rightPlain⟩ := right
  simp only [OneTimeKeyId.chars] at same
  obtain ⟨algorithms, _⟩ := (append_cons_isPrefix_iff leftFree rightFree).mp ⟨[], by rw [List.append_nil, same]⟩
  rw [algorithms, List.append_cancel_left_eq, List.cons.injEq] at same
  obtain ⟨leftText⟩ := leftAlgorithm
  obtain ⟨rightText⟩ := rightAlgorithm
  grind [String.toList_injective]

theorem toJson_injective : Function.Injective OneTimeKeyId.toJson :=
  fun _ _ same => chars_injective (jsonString_injective (utf8_injective same))

theorem separatorFree (text : List Char) : separator ∉ utf8 text := separator_not_mem_utf8 text

theorem oneTimeKeyRow_eq (dev : UserDeviceId) (kid : OneTimeKeyId) : oneTimeKeyRow dev kid = [separator].intercalate
      [utf8 dev.userId.asStr.toList, utf8 dev.deviceId.asStr.toList, kid.toJson] := by
  simp [oneTimeKeyRow, deviceStart, List.intercalate, List.intersperse]

theorem splitOn_oneTimeKeyRow (dev : UserDeviceId) (kid : OneTimeKeyId) : (oneTimeKeyRow dev kid).splitOn separator =
      [utf8 dev.userId.asStr.toList, utf8 dev.deviceId.asStr.toList, kid.toJson] := by
  rw [oneTimeKeyRow_eq, List.splitOn_intercalate]
  · intro part mem
    simp only [List.mem_cons, List.not_mem_nil, or_false] at mem
    rcases mem with rfl | rfl | rfl
    all_goals exact separatorFree _
  · exact List.cons_ne_nil _ _

theorem rowKeyId_oneTimeKeyRow (serde : Serde) : rowKeyId serde (oneTimeKeyRow dev kid) = some kid := by
  rw [rowKeyId, splitOn_oneTimeKeyRow]
  exact serde.fromSlice_toJson kid

theorem userDeviceId_eq (users : dev.userId.asStr.toList = other.userId.asStr.toList)
    (devices : dev.deviceId.asStr.toList = other.deviceId.asStr.toList) : dev = other := by
  obtain ⟨⟨user⟩, ⟨name⟩⟩ := dev
  obtain ⟨⟨otherUser⟩, ⟨otherName⟩⟩ := other
  grind [String.toList_injective]

theorem deviceStart_append_isPrefix_iff (dev other : UserDeviceId) (kid : OneTimeKeyId) (text : List Char) :
    deviceStart dev ++ utf8 text <+: oneTimeKeyRow other kid ↔ dev = other ∧ utf8 text <+: kid.toJson := by
  simp only [oneTimeKeyRow, deviceStart, List.append_assoc, List.cons_append, List.nil_append]
  grind [append_cons_isPrefix_iff, separatorFree, userDeviceId_eq, utf8_injective]

theorem deviceStart_isPrefix_iff : deviceStart dev <+: oneTimeKeyRow other kid ↔ dev = other := by
  have iff := deviceStart_append_isPrefix_iff dev other kid []
  grind [utf8]

theorem claimStart_isPrefix (begins : claimStart dev algorithm <+: oneTimeKeyRow other kid) :
    dev = other ∧ (kid.algorithm = algorithm ↔ ':' ∉ algorithm.asStr.toList) := by
  obtain ⟨same, texts⟩ := (deviceStart_append_isPrefix_iff dev other kid _).mp begins
  refine ⟨same, fun equal => equal ▸ kid.colonFree, ?_⟩
  intro colonFree
  have ascii : ∀ {text : List Char}, ':' ∉ text → UInt8.ofNat ':'.toNat ∉ utf8 text :=
    fun free mem => free (mem_of_ascii_mem_utf8 (by decide) mem)
  rw [OneTimeKeyId.toJson, jsonString_chars, OneTimeKeyId.escaped, utf8_cons, utf8_cons, List.prefix_append_right_inj,
    List.append_assoc, List.cons_append, utf8_append, utf8_append, utf8_cons, utf8_cons] at texts
  have colon : String.utf8EncodeChar ':' = [UInt8.ofNat ':'.toNat] := by decide
  rw [colon, List.singleton_append, List.singleton_append,
    append_cons_isPrefix_iff (ascii colonFree) (ascii kid.colonFree)] at texts
  have names := String.toList_injective (utf8_injective texts.1)
  obtain ⟨name⟩ := algorithm
  cases names
  rfl

theorem deviceKeyId_oneTimeKeyRow : deviceKeyId (oneTimeKeyRow dev kid) = some kid.escaped := by
  rw [deviceKeyId, splitOn_oneTimeKeyRow]
  have decoded : decodeUtf8 kid.toJson = some ('"' :: (kid.escaped ++ ['"'])) := by
    rw [OneTimeKeyId.toJson, decodeUtf8_utf8, jsonString_chars]
  simp [decoded, unquote]

theorem keyAlgorithm_escaped (kid : OneTimeKeyId) : keyAlgorithm kid.escaped = some kid.algorithm := by
  have mem : ':' ∈ kid.escaped := List.mem_append_right _ List.mem_cons_self
  have before : ∀ char ∈ kid.algorithm.asStr.toList, decide (char ≠ ':') = true :=
    fun char inside => decide_eq_true fun same => kid.colonFree (same ▸ inside)
  rw [keyAlgorithm, if_pos mem, OneTimeKeyId.escaped, List.takeWhile_append_of_pos before,
    List.takeWhile_cons_of_neg (by decide), List.append_nil, String.ofList_toList]

theorem oneTimeKeyRow_injective : Function.Injective (fun key : UserDeviceId × OneTimeKeyId =>
    oneTimeKeyRow key.1 key.2) := by
  rintro ⟨dev, kid⟩ ⟨other, another⟩ same
  grind [splitOn_oneTimeKeyRow, toJson_injective, userDeviceId_eq, utf8_injective]

section Counts

variable {counts : BTreeMap OneTimeKeyAlgorithm ℕ}
variable {numbers : OneTimeKeyAlgorithm → ℕ}

def counted (number : ℕ) : Option ℕ := if number = 0 then none else some (min number maxUInt)

theorem countKey_counted {sought : OneTimeKeyAlgorithm}
    (so : ∀ algorithm, counts.get algorithm = counted (numbers algorithm)) :
    (countKey counts algorithm).get sought = counted (numbers sought + if algorithm = sought then 1 else 0) := by
  grind [BTreeMap.get_insert_eq, countKey, counted]

theorem foldlM_countKey {texts : List (List Char)}
    (ids : ∀ text ∈ texts, (keyAlgorithm text).isSome)
    (so : ∀ algorithm, counts.get algorithm = counted (numbers algorithm)) :
    ∃ result, texts.foldlM (fun counts text => (keyAlgorithm text).map (countKey counts)) counts = some result ∧
      ∀ algorithm, result.get algorithm =
        counted (numbers algorithm + texts.countP fun text => keyAlgorithm text = some algorithm) := by
  induction texts generalizing counts numbers with
  | nil => exact ⟨counts, rfl, so⟩
  | cons text texts ih =>
    obtain ⟨algorithm, named⟩ := Option.isSome_iff_exists.mp (ids text List.mem_cons_self)
    obtain ⟨result, folded, numbered⟩ := ih (fun other mem => ids other (List.mem_cons_of_mem _ mem))
      (fun sought => countKey_counted so)
    refine ⟨result, ?_, ?_⟩
    · rw [List.foldlM_cons, named]
      exact folded
    · grind

end Counts

end Phantom.Keys
