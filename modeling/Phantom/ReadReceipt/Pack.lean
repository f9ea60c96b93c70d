import Phantom.Lib.LastWins
import Phantom.Matrix.Event

namespace Phantom.ReadReceipt

open Phantom.Lib Phantom.Matrix

def knownReceiptTypes : List String := ["m.read", "m.read.private"]

inductive ReceiptType where
  | read
  | readPrivate
  | custom (name : String) (isCustom : name ∉ knownReceiptTypes)

namespace ReceiptType

def toString : ReceiptType → String
  | read => "m.read"
  | readPrivate => "m.read.private"
  | custom name _ => name

def ofString (name : String) : ReceiptType :=
  if name = "m.read" then read
  else if name = "m.read.private" then readPrivate
  else if isCustom : name ∉ knownReceiptTypes then custom name isCustom
  else read

theorem ofString_toString (kind : ReceiptType) : ofString kind.toString = kind := by
  cases kind with
  | custom name isCustom =>
    grind [knownReceiptTypes, ofString, toString]
  | _ => rfl

theorem toString_injective : Function.Injective toString := Function.LeftInverse.injective ofString_toString

instance : LinearOrder ReceiptType := LinearOrder.lift' toString toString_injective

end ReceiptType

inductive ReceiptThread where
  | unthreaded
  | main
  | thread (eventId : EventId) (isThread : eventId.asStr.toList.head? = some '$')
  | custom (name : String) (isCustom : name ≠ "main" ∧ name.toList.head? ≠ some '$')
deriving DecidableEq, Repr

structure Receipt where
  ts : Option ℕ
  thread : ReceiptThread
deriving DecidableEq, Repr

abbrev UserReceipts := BTreeMap UserId Receipt
abbrev Receipts := BTreeMap ReceiptType UserReceipts
abbrev ReceiptEventContent := BTreeMap EventId Receipts

/-- Reading and writing the JSON of a receipt event: what is written is read back. -/
structure ReceiptCodec (Raw : Type) where
  fromStr : Raw → Option ReceiptEventContent
  toRawValue : ReceiptEventContent → Raw
  fromStr_toRawValue : ∀ content, fromStr (toRawValue content) = some content

section Pack

variable {Raw : Type} (codec : ReceiptCodec Raw)

def packReceipts (receipts : List Raw) : Raw :=
  let json := receipts.foldl (fun json value =>
    match codec.fromStr value with
    | some content => json.extend content
    | none => json) .empty
  codec.toRawValue json

/-- The receipts of a sliding sync response: those of the others, then the private one. -/
def assembleReceipts (publicReceipts : List Raw) (privateReceipt : Option Raw) : Option Raw :=
  match publicReceipts ++ privateReceipt.toList with
  | [] => none
  | receipts => some (packReceipts codec receipts)

end Pack

def receiptFor (content : ReceiptEventContent) (eventId : EventId) (receiptType : ReceiptType) (userId : UserId) :
    Option Receipt := do
  let receipts ← content.get eventId
  let users ← receipts.get receiptType
  users.get userId

section Exact

variable {Raw : Type} {codec : ReceiptCodec Raw}
variable {content : ReceiptEventContent} {eventId : EventId}

/-- The packed event has for every event, type and user the receipt of the last input that has one, and no other. -/
def PacksAll (codec : ReceiptCodec Raw) (receipts : List Raw) : Prop :=
  ∃ content, codec.fromStr (packReceipts codec receipts) = some content ∧ ∀ eventId receiptType userId,
    receiptFor content eventId receiptType userId =
      lastSome (fun input => receiptFor input eventId receiptType userId) (receipts.filterMap codec.fromStr)

/-- The last input that names an event has a receipt for every type and user that an earlier one has on it. -/
def LastCovers (inputs : List ReceiptEventContent) : Prop :=
  ∀ before last after eventId, inputs = before ++ last :: after → (last.get eventId).isSome →
    (∀ input ∈ after, input.get eventId = none) → ∀ input ∈ before, ∀ receiptType userId,
      (receiptFor input eventId receiptType userId).isSome → (receiptFor last eventId receiptType userId).isSome

theorem get_packed (receipts : List Raw) (start : ReceiptEventContent) (eventId : EventId) :
    (receipts.foldl (fun json value =>
      match codec.fromStr value with
      | some content => json.extend content
      | none => json) start).get eventId =
      (lastSome (fun input => input.get eventId) (receipts.filterMap codec.fromStr)).or (start.get eventId) := by
  induction receipts generalizing start with
  | nil => rfl
  | cons value receipts ih =>
    grind [lastSome_cons, BTreeMap.get_extend]

theorem receiptFor_of_get {input : ReceiptEventContent}
    (same : content.get eventId = input.get eventId) (receiptType : ReceiptType) (userId : UserId) :
    receiptFor content eventId receiptType userId = receiptFor input eventId receiptType userId := by
  rw [receiptFor, receiptFor, same]

theorem receiptFor_of_none (missing : content.get eventId = none)
    (receiptType : ReceiptType) (userId : UserId) : receiptFor content eventId receiptType userId = none := by
  rw [receiptFor, missing]
  rfl

theorem packs_iff_of_last {inputs before after : List ReceiptEventContent} {last : ReceiptEventContent}
    (packed : content.get eventId = lastSome (fun input => input.get eventId) inputs)
    (shape : inputs = before ++ last :: after) (names : (last.get eventId).isSome)
    (rest : ∀ input ∈ after, input.get eventId = none) :
    (∀ receiptType userId, receiptFor content eventId receiptType userId =
        lastSome (fun input => receiptFor input eventId receiptType userId) inputs) ↔
      ∀ input ∈ before, ∀ receiptType userId, (receiptFor input eventId receiptType userId).isSome →
        (receiptFor last eventId receiptType userId).isSome := by
  have same : content.get eventId = last.get eventId := by
    grind [lastSome_append, lastSome_cons, lastSome_eq_none, Option.or_of_isSome]
  have wanted : ∀ receiptType userId, lastSome (fun input => receiptFor input eventId receiptType userId) inputs =
      (receiptFor last eventId receiptType userId).or
        (lastSome (fun input => receiptFor input eventId receiptType userId) before) := by
    intro receiptType userId
    have later : lastSome (fun input => receiptFor input eventId receiptType userId) after = none :=
      lastSome_eq_none.mpr fun input mem => receiptFor_of_none (rest input mem) receiptType userId
    rw [shape, lastSome_append, lastSome_cons, later, Option.none_or]
  constructor
  · intro exact input mem receiptType userId has
    have held := exact receiptType userId
    grind [lastSome_isSome, receiptFor]
  · intro covers receiptType userId
    rw [receiptFor_of_get same, wanted]
    cases found : receiptFor last eventId receiptType userId with
    | some receipt => rfl
    | none =>
      grind [lastSome_eq_none, Option.not_isSome_iff_eq_none]

/-- Nothing is lost exactly where the last input that names an event has all that the earlier ones have on it. -/
theorem pack_receipts_exact_iff (codec : ReceiptCodec Raw) (receipts : List Raw) :
    PacksAll codec receipts ↔ LastCovers (receipts.filterMap codec.fromStr) := by
  have packed : ∀ content, codec.fromStr (packReceipts codec receipts) = some content → ∀ eventId,
      content.get eventId = lastSome (fun input => input.get eventId) (receipts.filterMap codec.fromStr) := by
    intro content read eventId
    rw [packReceipts, codec.fromStr_toRawValue] at read
    cases read
    rw [get_packed]
    exact Option.or_none
  constructor
  · intro packs before last after eventId shape names rest
    obtain ⟨content, read, exact⟩ := packs
    exact (packs_iff_of_last (packed content read eventId) shape names rest).mp (exact eventId)
  · intro covers
    refine ⟨_, codec.fromStr_toRawValue _, ?_⟩
    intro eventId
    have held := packed _ (codec.fromStr_toRawValue _) eventId
    rcases exists_last (fun input : ReceiptEventContent => input.get eventId) (receipts.filterMap codec.fromStr) with
      nothing | ⟨before, last, after, value, shape, names, rest⟩
    · grind [lastSome_eq_none, receiptFor_of_none]
    · have isSome : (last.get eventId).isSome := by
        rw [names]
        rfl
      exact (packs_iff_of_last held shape isSome rest).mpr (covers before last after eventId shape isSome rest)

end Exact

namespace Sample

def codec : ReceiptCodec ReceiptEventContent := ⟨some, id, fun _ => rfl⟩

def event : EventId := ⟨"$event"⟩
def alice : UserId := ⟨"@alice:here"⟩
def bob : UserId := ⟨"@bob:here"⟩
def receipt : Receipt := ⟨some 1, .unthreaded⟩

def readBy (userId : UserId) : ReceiptEventContent :=
  BTreeMap.empty.insert event (BTreeMap.empty.insert .read (BTreeMap.empty.insert userId receipt))

/-- Two users have read the same event, and only the second is told of. -/
theorem receipt_replaced : ¬ PacksAll codec [readBy alice, readBy bob] ∧
      (assembleReceipts codec [readBy alice, readBy bob] none).map (fun content => receiptFor content event .read alice) =
        some none := by
  refine ⟨?_, by decide +kernel⟩
  intro packs
  obtain ⟨content, read, exact⟩ := packs
  cases read
  exact absurd (exact event .read alice) (by decide +kernel)

end Sample

end Phantom.ReadReceipt
