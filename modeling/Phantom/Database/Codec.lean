import Phantom.Lib.Utf8

namespace Phantom.Database

open Phantom.Lib

inductive Ty where
  | str | u64 | i64 | optionStr | optionU64 | interfix
deriving DecidableEq

/-- A component of a key, or the directive that ends a prefix. -/
inductive Component where
  | str (text : List Char)
  | u64 (number : UInt64)
  | i64 (number : Int64)
  | optionStr (text : Option (List Char))
  | optionU64 (number : Option UInt64)
  | interfix
deriving DecidableEq

def SEP : UInt8 := 0xFF

namespace Component

def ty : Component → Ty
  | str _ => .str
  | u64 _ => .u64
  | i64 _ => .i64
  | optionStr _ => .optionStr
  | optionU64 _ => .optionU64
  | interfix => .interfix

/-- What `serialize` writes of a component. -/
def bytes : Component → Bytes
  | str text => utf8 text
  | u64 number => toBeBytes number
  | i64 number => toBeBytes number.toUInt64
  | optionStr text => (text.map utf8).getD []
  | optionU64 number => (number.map toBeBytes).getD []
  | interfix => []

/-- The components that a key may have: a string that is there is not empty, a number that is there is below `2 ^ 56`. -/
def Valid : Component → Prop
  | optionStr text => text ≠ some []
  | optionU64 number => ∀ word, number = some word → word.toNat < 2 ^ 56
  | interfix => False
  | _ => True

end Component

structure Serializer where
  out : Bytes
  sep : Bool

namespace Serializer

def recordStart (serializer : Serializer) : Serializer :=
  { out := if serializer.sep then serializer.out ++ [SEP] else serializer.out, sep := true }

def serializeElement (serializer : Serializer) (component : Component) : Serializer :=
  { serializer.recordStart with out := serializer.recordStart.out ++ component.bytes }

end Serializer

def serialize (tuple : List Component) : Bytes := (tuple.foldl Serializer.serializeElement ⟨[], false⟩).out

structure Deserializer where
  buf : Bytes
  pos : ℕ
  records : ℕ

namespace Deserializer

variable (deserializer : Deserializer)

def recordStart : Deserializer :=
  { deserializer with
    pos := deserializer.pos + (if deserializer.pos ≠ 0 ∨ 0 < deserializer.records then 1 else 0)
    records := deserializer.records + 1 }

def incPos (count : ℕ) (deserializer : Deserializer) : Deserializer :=
    { deserializer with pos := deserializer.pos + count }

def recordNext : Bytes := (deserializer.buf.drop deserializer.pos).takeWhile (· ≠ SEP)

def deserializeStr : Option (List Char × Deserializer) :=
  (decodeUtf8 deserializer.recordNext).map fun text => (text, deserializer.incPos deserializer.recordNext.length)

def deserializeU64 : Option (UInt64 × Deserializer) :=
  let bytes := (deserializer.buf.drop deserializer.pos).take 8
  if bytes.length = 8 then some (fromBeBytes bytes, deserializer.incPos 8) else none

def atNone : Bool := deserializer.buf[deserializer.pos]?.all (· = SEP)

def deserialize : Ty → Option (Component × Deserializer)
  | .str => deserializer.deserializeStr.map fun read => (.str read.1, read.2)
  | .u64 => deserializer.deserializeU64.map fun read => (.u64 read.1, read.2)
  | .i64 => deserializer.deserializeU64.map fun read => (.i64 read.1.toInt64, read.2)
  | .optionStr =>
    if deserializer.atNone then some (.optionStr none, deserializer)
    else deserializer.deserializeStr.map fun read => (.optionStr (some read.1), read.2)
  | .optionU64 =>
    if deserializer.atNone then some (.optionU64 none, deserializer)
    else deserializer.deserializeU64.map fun read => (.optionU64 (some read.1), read.2)
  | .interfix => none

def nextElement (ty : Ty) : Option (Component × Deserializer) :=
  if deserializer.buf.length ≤ deserializer.pos then none else deserializer.recordStart.deserialize ty

def visitSeq : List Ty → Deserializer → Option (List Component)
  | [], _ => some []
  | ty :: types, deserializer => do
    let (component, later) ← deserializer.nextElement ty
    let rest ← visitSeq types later
    return component :: rest

end Deserializer

def fromSlice (types : List Ty) (buf : Bytes) : Option (List Component) := Deserializer.visitSeq types ⟨buf, 0, 0⟩

def separated (tuple : List Component) : Bytes := tuple.flatMap fun component => SEP :: component.bytes

variable (tuple : List Component)

theorem foldl_serializeElement (out : Bytes) :
    (tuple.foldl Serializer.serializeElement ⟨out, true⟩).out = out ++ separated tuple := by
  induction tuple generalizing out with
  | nil => simp [separated]
  | cons component tuple ih =>
    rw [List.foldl_cons, Serializer.serializeElement, Serializer.recordStart, if_pos rfl, ih]
    simp [separated]

theorem serialize_cons (component : Component) (tuple : List Component) :
    serialize (component :: tuple) = component.bytes ++ separated tuple := by
  rw [serialize, List.foldl_cons, Serializer.serializeElement, Serializer.recordStart, if_neg Bool.false_ne_true,
    foldl_serializeElement]
  rfl

def Ends (tail : Bytes) : Prop := tail.head?.all (· = SEP) = true

theorem ends_separated : Ends (separated tuple) := by
  cases tuple <;> simp [Ends, separated]

namespace Deserializer

variable {deserializer : Deserializer} {tail : Bytes} {text : List Char}

theorem deserializeStr_utf8 (rest : deserializer.buf.drop deserializer.pos = utf8 text ++ tail) (ends : Ends tail) :
    deserializer.deserializeStr = some (text, deserializer.incPos (utf8 text).length) := by
  have record : deserializer.recordNext = utf8 text := by
    have free : ∀ byte ∈ utf8 text, decide (byte ≠ SEP) = true := by
      intro byte mem
      refine decide_eq_true fun same => ?_
      rw [same] at mem
      exact separator_not_mem_utf8 text mem
    rw [recordNext, rest, List.takeWhile_append_of_pos free]
    cases tail with
    | nil => simp
    | cons byte tail =>
      have separator : byte = SEP := by simpa [Ends] using ends
      simp [separator]
  rw [deserializeStr, record, decodeUtf8_utf8]
  rfl

variable {n : UInt64}

theorem deserializeU64_toBeBytes (rest : deserializer.buf.drop deserializer.pos = toBeBytes n ++ tail) :
    deserializer.deserializeU64 = some (n, deserializer.incPos 8) := by
  have bytes : (deserializer.buf.drop deserializer.pos).take 8 = toBeBytes n := by
    rw [rest]
    exact List.take_left' (length_toBeBytes n)
  simp [deserializeU64, bytes]

theorem atNone_eq : deserializer.atNone = (deserializer.buf.drop deserializer.pos).head?.all (· = SEP) := by
  rw [atNone, List.head?_drop]

theorem head_utf8 (filled : text ≠ []) : ∃ byte more, utf8 text = byte :: more ∧ byte ≠ SEP := by
  cases bytes : utf8 text with
  | nil => exact absurd (utf8_injective bytes) filled
  | cons byte more =>
    refine ⟨byte, more, rfl, fun same => separator_not_mem_utf8 text ?_⟩
    rw [bytes, same]
    exact List.mem_cons_self

theorem head_toBeBytes (small : n.toNat < 2 ^ 56) : ∃ more, toBeBytes n = 0 :: more := by
  have zero : n.toNat / 256 / 256 / 256 / 256 / 256 / 256 / 256 = 0 := by omega
  simp [toBeBytes, beBytes, zero]

theorem deserialize_bytes {component : Component} (valid : component.Valid)
    (rest : deserializer.buf.drop deserializer.pos = component.bytes ++ tail) (ends : Ends tail) :
    deserializer.deserialize component.ty = some (component, deserializer.incPos component.bytes.length) := by
  cases component with
  | str text => simp [Component.ty, deserialize, deserializeStr_utf8 rest ends, Component.bytes]
  | u64 n | i64 n => simp [Component.ty, deserialize, deserializeU64_toBeBytes rest, Component.bytes]
  | optionStr text =>
    cases text with
    | none =>
      have none : deserializer.atNone = true := by
        rw [atNone_eq, rest]
        exact ends
      simp [Component.ty, deserialize, none, Component.bytes, incPos]
    | some text =>
      obtain ⟨byte, more, bytes, ne⟩ := head_utf8 fun empty => valid (congrArg some empty)
      have some : deserializer.atNone = false := by
        rw [atNone_eq, rest]
        simp [Component.bytes, bytes, ne]
      simp [Component.ty, deserialize, some, deserializeStr_utf8 rest ends, Component.bytes]
  | optionU64 n =>
    cases n with
    | none =>
      have none : deserializer.atNone = true := by
        rw [atNone_eq, rest]
        exact ends
      simp [Component.ty, deserialize, none, Component.bytes, incPos]
    | some n =>
      obtain ⟨more, bytes⟩ := head_toBeBytes (valid n rfl)
      have some : deserializer.atNone = false := by
        rw [atNone_eq, rest]
        simp [Component.bytes, bytes, SEP]
      simp [Component.ty, deserialize, some, deserializeU64_toBeBytes rest, Component.bytes]
  | interfix => exact absurd valid id

theorem visitSeq_separated {tuple : List Component} (valid : ∀ component ∈ tuple, component.Valid)
    (started : 0 < deserializer.records) (rest : deserializer.buf.drop deserializer.pos = separated tuple) :
    visitSeq (tuple.map Component.ty) deserializer = some tuple := by
  induction tuple generalizing deserializer with
  | nil => rfl
  | cons component tuple ih =>
    have here : deserializer.pos < deserializer.buf.length := by
      rw [← List.drop_eq_nil_iff.not.trans Nat.not_le, rest]
      simp [separated]
    have past : deserializer.buf.drop (deserializer.pos + 1) = component.bytes ++ separated tuple := by
      rw [← List.drop_drop, rest]
      rfl
    have start : deserializer.recordStart = ⟨deserializer.buf, deserializer.pos + 1, deserializer.records + 1⟩ := by
      simp [recordStart, started]
    have read : deserializer.nextElement component.ty =
        some (component, deserializer.recordStart.incPos component.bytes.length) := by
      rw [nextElement, if_neg (Nat.not_le.mpr here)]
      refine deserialize_bytes (valid component List.mem_cons_self) ?_ (ends_separated tuple)
      rw [start]
      exact past
    have others : visitSeq (tuple.map Component.ty) (deserializer.recordStart.incPos component.bytes.length) =
      some tuple := by
      refine ih (fun other mem => valid other (List.mem_cons_of_mem _ mem)) (Nat.succ_pos _) ?_
      rw [start]
      simp only [incPos]
      rw [← List.drop_drop, past]
      exact List.drop_left
    simp [visitSeq, read, others]

end Deserializer

theorem fromSlice_serialize {tuple : List Component} (several : 2 ≤ tuple.length)
    (valid : ∀ component ∈ tuple, component.Valid) :
    fromSlice (tuple.map Component.ty) (serialize tuple) = some tuple := by
  cases tuple with
  | nil => cases several
  | cons component tuple =>
    have filled : separated tuple ≠ [] := by
      cases tuple with
      | nil => exact absurd several (by simp)
      | cons other tuple => simp [separated]
    have here : ¬ (serialize (component :: tuple)).length ≤ 0 := by
      rw [serialize_cons, Nat.le_zero, List.length_eq_zero_iff]
      exact fun empty => filled (List.append_eq_nil_iff.mp empty).2
    have read : Deserializer.nextElement ⟨serialize (component :: tuple), 0, 0⟩ component.ty =
        some (component, ⟨serialize (component :: tuple), component.bytes.length, 1⟩) := by
      rw [Deserializer.nextElement, if_neg here]
      rw [Deserializer.deserialize_bytes (valid component List.mem_cons_self)
        (by simp [Deserializer.recordStart, serialize_cons])
        (ends_separated tuple)]
      simp [Deserializer.recordStart, Deserializer.incPos]
    have others : Deserializer.visitSeq (tuple.map Component.ty)
        ⟨serialize (component :: tuple), component.bytes.length, 1⟩ = some tuple := by
      refine Deserializer.visitSeq_separated (fun other mem => valid other (List.mem_cons_of_mem _ mem)) Nat.one_pos ?_
      rw [serialize_cons]
      exact List.drop_left
    simp [fromSlice, Deserializer.visitSeq, read, others]

/-- Whatever tuple of two or more components: its key is read back at its type, and no other tuple of the type has
    that key. -/
theorem codec_round_trip (tuple : List Component) (several : 2 ≤ tuple.length)
    (valid : ∀ component ∈ tuple, component.Valid) :
    fromSlice (tuple.map Component.ty) (serialize tuple) = some tuple ∧
    ∀ other : List Component, (∀ component ∈ other, component.Valid) → other.map Component.ty = tuple.map Component.ty →
      serialize other = serialize tuple → other = tuple := by
  refine ⟨fromSlice_serialize several valid, ?_⟩
  intro other otherValid types same
  have length : other.length = tuple.length := by simpa using congrArg List.length types
  have read := fromSlice_serialize (length.symm ▸ several) otherValid
  rw [types, same, fromSlice_serialize several valid] at read
  exact (Option.some.inj read).symm

theorem codec_round_trip_of_four : fromSlice [.str, .u64, .optionStr, .optionU64]
    (serialize [.str "a".toList, .u64 0xFF, .optionStr none, .optionU64 (some 7)]) =
      some [.str "a".toList, .u64 0xFF, .optionStr none, .optionU64 (some 7)] := by
  refine (codec_round_trip [.str "a".toList, .u64 0xFF, .optionStr none, .optionU64 (some 7)] (by decide) ?_).1
  simp only [List.forall_mem_cons, List.not_mem_nil, false_imp_iff, forall_true_iff, and_true]
  refine ⟨trivial, trivial, Option.some_ne_none [] ∘ Eq.symm, ?_⟩
  rintro word ⟨⟩
  decide

end Phantom.Database
