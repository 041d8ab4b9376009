import RowPolicy.Json.Draft
import RowPolicy.Json.Printer
import RowPolicy.Text.Escaped

/-!
# Decoding of JSON values

Records, alternatives and lists are decoded from JSON values. A record is an object or an array of
its fields in order; its fields are decoded as they come, so the first one that is wrong decides
the error, and a field that is missing is reported after that. What a value came from shows in a
few messages.
-/

namespace RowPolicy

/-- Where a value to be decoded comes from. -/
inductive Origin where
  | value
  /-- A part of a record that was read in full before it was decoded. -/
  | buffered
  /-- A text that is decoded while it is read. -/
  | text
  deriving DecidableEq, Repr, Inhabited

/-- What was found in place of something else. -/
inductive Found where
  | null
  | bool (b : Bool)
  | int (i : Int)
  | real (x : Binary64)
  | str (s : String)
  | sequence
  | map
  | unitVariant
  | tagged
  deriving Inhabited

/-- Why a value could not be decoded. -/
inductive DecodeError where
  | fault (e : JsonFault)
  | invalidType (found : Found) (expected : String)
  | invalidValue (found : Found) (expected : String)
  | invalidLength (found : Nat) (expected : String)
  | missingField (name : String)
  | duplicateField (name : String)
  | unknownVariant (name : String) (known : List String)
  | noVariant (name : String)
  | other (message : String)
  deriving Inhabited

namespace Found

def ofJson : Json → Found
  | .null => .null
  | .bool b => .bool b
  | .int i => .int i
  | .real x => .real x
  | .str s => .str s
  | .arr _ => .sequence
  | .obj _ => .map

def describe (nullText : String) (realText : Binary64 → String) : Found → String
  | .null => nullText
  | .bool b => "boolean `" ++ (if b then "true" else "false") ++ "`"
  | .int i => "integer `" ++ Number.intText i ++ "`"
  | .real x => "floating point `" ++ realText x ++ "`"
  | .str s => "string " ++ Text.quoted s
  | .sequence => "sequence"
  | .map => "map"
  | .unitVariant => "unit variant"
  | .tagged => "enum"

end Found

namespace DecodeError

def oneOf (names : List String) : String :=
  let quoted := names.map fun n => "`" ++ n ++ "`"
  match quoted with
  | [] => "there are no variants"
  | [a] => "expected " ++ a
  | [a, b] => "expected " ++ a ++ " or " ++ b
  | _ => "expected one of " ++ String.intercalate ", " quoted

/-- The text of an error, given the wording of what was found. -/
def messageWith (describe : Found → String) : DecodeError → String
  | .fault e => e.message
  | .invalidType found expected =>
    "invalid type: " ++ describe found ++ ", expected " ++ expected
  | .invalidValue found expected =>
    "invalid value: " ++ describe found ++ ", expected " ++ expected
  | .invalidLength found expected =>
    "invalid length " ++ Number.natText found ++ ", expected " ++ expected
  | .missingField name => "missing field `" ++ name ++ "`"
  | .duplicateField name => "duplicate field `" ++ name ++ "`"
  | .unknownVariant name known => "unknown variant `" ++ name ++ "`, " ++ oneOf known
  | .noVariant name => "data did not match any variant of untagged enum " ++ name
  | .other text => text

def message (e : DecodeError) : String :=
  e.messageWith (Found.describe "null" Binary64.jsonText)

end DecodeError

namespace Json

variable {α : Type}

abbrev Decoded := Except DecodeError

def wrongType (j : Json) (expected : String) : DecodeError := .invalidType (.ofJson j) expected

/-! ### Scalars and lists -/

/-- Decode a text, described in the error by `expected`. -/
def asText (expected : String) : Json → Decoded String
  | .str s => .ok s
  | j => .error (wrongType j expected)

def asString : Json → Decoded String := asText "a string"

def asList (decode : Json → Decoded α) : Json → Decoded (List α)
  | .arr items => items.mapM decode
  | j => .error (wrongType j "a sequence")

def asStrings : Json → Decoded (List String) := asList asString

/-- Decode a value that may be null. -/
def asOption (decode : Json → Decoded α) : Json → Decoded (Option α)
  | .null => .ok none
  | j => (decode j).map some

/-! ### Alternatives -/

/-- The name of an alternative and its body: a text, or an object with one field. -/
def asVariant (origin : Origin) : Json → Decoded (String × Option Json)
  | .str s => .ok (s, none)
  | .obj [(k, v)] => .ok (k, some v)
  | .obj _ => .error (.invalidValue .map "map with a single key")
  | j =>
    match origin with
    | .text => .error (.fault .expectedValue)
    | _ => .error (wrongType j "string or map")

/-- The body of an alternative without fields. -/
def unitBody (origin : Origin) : Option Json → Decoded Unit
  | none => .ok ()
  | some .null => .ok ()
  | some (.obj []) =>
    if origin == .buffered then .ok () else .error (.invalidType .map "unit")
  | some j => .error (wrongType j "unit")

def valueBody : Option Json → Decoded Json
  | none => .error (.invalidType .unitVariant "newtype variant")
  | some j => .ok j

def asNamed (origin : Origin) (known : List (String × α)) (j : Json) : Decoded α := do
  let (name, body) ← asVariant origin j
  match known.lookup name with
  | none => throw (.unknownVariant name (known.map (·.1)))
  | some a =>
    unitBody origin body
    pure a

/-! ### Records -/

variable {β : Type}

/-- The fields of a record that is being decoded. -/
structure Record (β : Type) where
  /-- The fields in order. -/
  fields : List (String × β)
  missing : String → DecodeError
  /-- Pass over the value of an unknown field. -/
  skip : β → Decoded Unit
  /-- What is met behind the last field. -/
  stop : Decoded Unit

/-- A known field and whether its value can be decoded. -/
abbrev FieldCheck (β : Type) := String × (β → Decoded Unit)

/-- A known field with the decoder of its value. -/
def FieldCheck.of (name : String) (decode : β → Decoded α) : FieldCheck β :=
  (name, fun b => (decode b).map fun _ => ())

namespace Record

/-- Check the fields in order: the known ones by their decoders, each once. -/
def scan (checks : List (FieldCheck β)) (skip : β → Decoded Unit) (seen : List String) :
    List (String × β) → Decoded Unit
  | [] => .ok ()
  | (name, b) :: rest =>
    match checks.lookup name with
    | none => do
      skip b
      scan checks skip seen rest
    | some check =>
      if seen.contains name then .error (.duplicateField name)
      else do
        check b
        scan checks skip (name :: seen) rest

def check (r : Record β) (checks : List (FieldCheck β)) : Decoded Unit := do
  scan checks r.skip [] r.fields
  r.stop

def required (r : Record β) (name : String) (decode : β → Decoded α) : Decoded α :=
  match r.fields.lookup name with
  | some b => decode b
  | none => .error (r.missing name)

def optional (r : Record β) (name : String) (decode : β → Decoded α) (default : α) : Decoded α :=
  match r.fields.lookup name with
  | some b => decode b
  | none => .ok default

def others (r : Record β) (names : List String) : List (String × β) :=
  r.fields.filter fun field => !names.contains field.1

end Record

def recordOf (fields : Fields) : Record Json := ⟨fields, .missingField, fun _ => .ok (), .ok ()⟩

def elementCount (n : Nat) : String :=
  if n == 1 then "1 element" else Number.natText n ++ " elements"

def tooFewItems (title : String) (names : List String) (name : String) : DecodeError :=
  .invalidLength (names.idxOf name) (title ++ " with " ++ elementCount names.length)

/-- The record of an array: the fields in order, and an error for one behind the end. -/
def recordOfItems (title : String) (names : List String) (items : List Json) : Record Json :=
  ⟨names.zip items, tooFewItems title names, fun _ => .ok (), .ok ()⟩

def tooManyItems (origin : Origin) (fields items : Nat) : DecodeError :=
  match origin with
  | .value => .invalidLength items "fewer elements in array"
  | .buffered => .invalidLength items (elementCount fields ++ " in sequence")
  | .text => .fault .trailingCharacters

/-- Decode a record given as an object or as an array. -/
def asRecord (origin : Origin) (title expected : String) (names : List String)
    (decode : Record Json → Decoded α) : Json → Decoded α
  | .obj fields => decode (recordOf fields)
  | .arr items => do
    let a ← decode (recordOfItems title names items)
    if names.length < items.length then throw (tooManyItems origin names.length items.length)
    pure a
  | j => .error (wrongType j expected)

/-- Decode the body of an alternative with fields: an object, or an array if the value was
buffered. -/
def recordBody (origin : Origin) (title : String) (names : List String)
    (decode : Record Json → Decoded α) : Option Json → Decoded α
  | none => .error (.invalidType .unitVariant "struct variant")
  | some (.obj fields) => decode (recordOf fields)
  | some (.arr items) =>
    if origin == .buffered then
      asRecord origin title "struct variant" names decode (.arr items)
    else .error (.invalidType .sequence "struct variant")
  | some j => .error (wrongType j "struct variant")

end Json

end RowPolicy
