import Phantom.Lib.KeyOrder

namespace Phantom.Lib

def utf8 (text : List Char) : Bytes := text.flatMap String.utf8EncodeChar

def decodeUtf8 (bytes : Bytes) : Option (List Char) := bytes.toByteArray.utf8Decode?.map Array.toList

variable (text : List Char)

@[simp] theorem decodeUtf8_utf8 : decodeUtf8 (utf8 text) = some text := by
  have encoded : (utf8 text).toByteArray = text.utf8Encode := rfl
  rw [decodeUtf8, encoded, List.utf8Decode?_utf8Encode]
  rfl

theorem utf8_injective : Function.Injective utf8 := by
  intro left right same
  grind [decodeUtf8_utf8]

theorem utf8_append (more : List Char) : utf8 (text ++ more) = utf8 text ++ utf8 more := List.flatMap_append

theorem utf8_cons (char : Char) (text : List Char) : utf8 (char :: text) = String.utf8EncodeChar char ++ utf8 text :=
  List.flatMap_cons

theorem mem_utf8EncodeChar {char : Char} {byte : UInt8} (mem : byte ∈ String.utf8EncodeChar char) :
    (byte.toNat = char.toNat ∧ byte.toNat < 128) ∨ (128 ≤ byte.toNat ∧ byte.toNat < 255 ∧ 128 ≤ char.toNat) := by
  have value : char.toNat = char.val.toNat := rfl
  unfold String.utf8EncodeChar at mem
  simp only at mem
  split at mem
  · rw [List.mem_singleton] at mem
    rw [mem, UInt8.toNat_ofNat']
    omega
  · split at mem
    · simp only [List.mem_cons, List.not_mem_nil, or_false] at mem
      rcases mem with rfl | rfl
      all_goals
        rw [UInt8.toNat_ofNat']
        omega
    · split at mem
      all_goals
        simp only [List.mem_cons, List.not_mem_nil, or_false] at mem
        rcases mem with rfl | rfl | rfl | rfl
        all_goals
          rw [UInt8.toNat_ofNat']
          omega

theorem separator_not_mem_utf8 : 0xFF ∉ utf8 text := by
  intro mem
  obtain ⟨char, _, inside⟩ := List.mem_flatMap.mp mem
  rcases mem_utf8EncodeChar inside with ⟨_, ascii⟩ | ⟨_, below, _⟩
  · exact absurd ascii (by decide)
  · exact absurd below (by decide)

theorem mem_of_ascii_mem_utf8 {char : Char} {text : List Char} (ascii : char.toNat < 128)
    (mem : UInt8.ofNat char.toNat ∈ utf8 text) : char ∈ text := by
  obtain ⟨other, found, inside⟩ := List.mem_flatMap.mp mem
  have value : (UInt8.ofNat char.toNat).toNat = char.toNat := by
    rw [UInt8.toNat_ofNat']
    omega
  rcases mem_utf8EncodeChar inside with ⟨same, _⟩ | ⟨beyond, _, _⟩
  · rw [value] at same
    rwa [Char.toNat_inj.mp same]
  · omega

end Phantom.Lib
