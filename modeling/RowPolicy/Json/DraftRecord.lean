import RowPolicy.Json.Decode

/-!
# Records in texts

A record that is decoded while its text is read: some fields are decoded at once, the others are
read in full and kept for later. A value given as such is decoded in the same way.
-/

namespace RowPolicy.Json.Draft

variable {α : Type}

mutual

def ofJson : Json → Draft
  | .null => .null
  | .bool b => .bool b
  | .int i => .number (.int i)
  | .real x => .number (.real x)
  | .str s => .str s
  | .arr items => .arr (ofJsons items)
  | .obj fields => .obj (ofFields fields) none

def ofJsons : List Json → List Draft
  | [] => []
  | j :: rest => ofJson j :: ofJsons rest

def ofFields : List (String × Json) → List (String × Draft)
  | [] => []
  | (k, j) :: rest => (k, ofJson j) :: ofFields rest

end

def lift (r : Except JsonFault α) : Decoded α := r.mapError .fault

/-- Decode a scalar by its first token. -/
def scalar (decode : Json → Decoded α) (d : Draft) : Decoded α := do
  let j ← lift d.head
  decode j

/-- Read a value in full. -/
def content (d : Draft) : Decoded Json := lift d.toJson

/-- Decode one of several names; only an object is looked into. -/
def named (decode : Json → Decoded α) (d : Draft) : Decoded α := do
  let j ← match d with
    | .obj _ _ => d.content
    | _ => lift d.head
  decode j

/-- The record of an object in a text. -/
def recordOf (fields : List (String × Draft)) (stop : Option JsonFault) : Record Draft where
  fields := fields
  missing := .missingField
  skip d := d.content.map fun _ => ()
  stop := match stop with
    | none => .ok ()
    | some e => .error (.fault e)

/-- What is wrong behind the last field of a record given as an array. -/
def behindItems (origin : Origin) (fields : Nat) (items : List Draft) : Decoded Unit :=
  match items.drop fields with
  | [] => .ok ()
  | .fault .endInList :: _ => .error (.fault .endInList)
  | .fault .trailingComma :: _ => .error (.fault .trailingComma)
  | _ => .error (tooManyItems origin fields items.length)

/-- Decode a record given as an object or as an array. -/
def asRecord (origin : Origin) (title : String) (names : List String)
    (decode : Record Draft → Decoded α) : Draft → Decoded α
  | .obj fields stop => decode (recordOf fields stop)
  | .arr items => do
    let a ← decode ⟨names.zip items, tooFewItems title names, fun _ => .ok (), .ok ()⟩
    behindItems origin names.length items
    pure a
  | d => do
    let j ← lift d.head
    throw (wrongType j title)

/-- The remaining fields read in full. -/
def contents (fields : List (String × Draft)) : Decoded Fields :=
  fields.mapM fun field => do
    let j ← field.2.content
    pure (field.1, j)

/-- Split off the tag of a tagged record; the rest is read in full. -/
def splitTag (tag expected : String) (decodeTag : Json → Decoded α) :
    Draft → Decoded (α × Json)
  | .obj fields stop => do
    let r := recordOf fields stop
    r.check [.of tag (scalar decodeTag)]
    let a ← r.required tag (scalar decodeTag)
    let rest ← contents (r.others [tag])
    pure (a, .obj rest)
  | .arr [] => .error (.missingField tag)
  | .arr (first :: rest) => do
    let a ← scalar decodeTag first
    let items ← rest.mapM content
    pure (a, .arr items)
  | d => do
    let j ← lift d.head
    throw (wrongType j expected)

/-- Decode a text as a whole: nothing may follow the value. -/
def decodeText (decode : Draft → Decoded α) (text : String) : Decoded α := do
  let (root, trailing) := draft text
  let a ← decode root
  if trailing then throw (.fault .trailingCharacters)
  pure a

end RowPolicy.Json.Draft
