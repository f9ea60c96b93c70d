import Phantom.Lib.BTree

namespace Phantom.Lib

/-- A JSON value. An object keeps its members as they are written, repeated names included. -/
inductive Json where
  | null
  | bool (value : Bool)
  | number (mantissa exponent : Int)
  | string (value : String)
  | array (items : List Json)
  | object (members : List (String × Json))

/-- What a derived `Deserialize` finds for one field: a value, no member of that name,
    or the end of a sequence that is shorter than the struct. -/
inductive Slot where
  | value (json : Json)
  | missing
  | pastEnd

namespace Slot

variable {α : Type}

def required (decode : Json → Option α) : Slot → Option α
  | .value json => decode json
  | .missing | .pastEnd => none

/-- A field of type `Option<T>`: `null` and an absent member are `None`. -/
def optional (decode : Json → Option α) : Slot → Option (Option α)
  | .value .null => some none
  | .value json => (decode json).map some
  | .missing => some none
  | .pastEnd => none

/-- A field marked `#[serde(default)]`. -/
def orDefault (default : α) (decode : Json → Option α) : Slot → Option α
  | .value json => decode json
  | .missing | .pastEnd => some default

end Slot

namespace Json

variable {α : Type} (fields : List String) (name : String)

/-- The input of one field of a derived struct with the given field names. Structs are
    read from objects, where a repeated field is an error and an unknown one is skipped,
    and from sequences, where fields stand in declaration order. -/
def field : Json → Option Slot
  | .object members =>
    match members.filter (fun member => member.1 = name) with
    | [] => some .missing
    | [(_, json)] => some (.value json)
    | _ => none
  | .array items =>
    if fields.length < items.length then none
    else match items[fields.idxOf name]? with
      | some json => some (.value json)
      | none => some .pastEnd
  | _ => none

variable (decode : Json → Option α)

def requiredField (json : Json) :
    Option α :=
  (json.field fields name).bind (Slot.required decode)

def optionalField (json : Json) :
    Option (Option α) :=
  (json.field fields name).bind (Slot.optional decode)

def defaultField (default : α) (decode : Json → Option α)
    (json : Json) : Option α :=
  (json.field fields name).bind (Slot.orDefault default decode)

def decodeBool : Json → Option Bool
  | .bool value => some value
  | _ => none

/-- `Raw<T>` and `Raw<IgnoredAny>` keep any value. -/
def raw : Json → Option Json := some

def decodeList : Json → Option (List α)
  | .array items => items.mapM decode
  | _ => none

/-- A map whose later members overwrite earlier ones of the same key. -/
def decodeMap {K V : Type} [LinearOrder K] (key : String → Option K) (value : Json → Option V) :
    Json → Option (BTreeMap K V)
  | .object members => members.foldlM
      (fun map member => do return map.insert (← key member.1) (← value member.2)) .empty
  | _ => none

end Json

end Phantom.Lib
