import RowPolicy.DefinitionError
import RowPolicy.Text.Blank

/-!
# Claims

A claim relates principals to entities: each of its rows holds a principal id, a related id and
the values of exposed attributes. The rows come from a table or from a query.
-/

namespace RowPolicy

/-- Where the rows of a claim come from. -/
inductive ClaimSource where
  | table (name : String)
  | query (sql : String)
  deriving DecidableEq, Repr, Inhabited

/-- A named relation between principals and entities. -/
structure Claim where
  name : String
  source : ClaimSource
  principalColumn : String
  /-- The column with the related id. -/
  valueColumn : String
  /-- Further columns that property checks may test. -/
  attributes : List String := []
  deriving DecidableEq, Repr, Inhabited

namespace Claim

def exposes (c : Claim) (property : String) : Bool := c.attributes.contains property

/-- The names of the first two columns of a claim's view. -/
def reservedNames : List String := ["principal_id", "related_id"]

/-- Check the attributes, given the names already taken. -/
def validateAttributes (claim : String) (taken : List String) : List String → Checked Unit
  | [] => .ok ()
  | name :: rest => do
    checkName .property name
    if taken.contains name then throw (.malformed (.attributeClash claim name))
    validateAttributes claim (name :: taken) rest

def validate (c : Claim) : Checked Unit := do
  checkName .claim c.name
  match c.source with
  | .table name => checkName .table name
  | .query sql => if Text.isBlankText sql then throw (.malformed (.blankQuery c.name))
  checkName .column c.principalColumn
  checkName .column c.valueColumn
  validateAttributes c.name reservedNames c.attributes

end Claim

/-! ### JSON form -/

namespace ClaimSource

def toJson : ClaimSource → Json
  | .table name => .obj [("table", .str name)]
  | .query sql => .obj [("sql", .str sql)]

def decodeText (name : String) (fields : Json.Fields) : Json.Decoded String := do
  let r := Json.recordOf fields
  r.check [.of name Json.asString]
  r.required name Json.asString

/-- Decode a source: a table if the table's name can be read, else a query. -/
def decode : Json → Json.Decoded ClaimSource
  | .obj fields =>
    match decodeText "table" fields with
    | .ok name => .ok (.table name)
    | .error _ =>
      match decodeText "sql" fields with
      | .ok sql => .ok (.query sql)
      | .error _ => .error (.noVariant "ClaimSource")
  | _ => .error (.noVariant "ClaimSource")

end ClaimSource

namespace Claim

/-- The fields of the JSON form; an empty list of attributes is left out. -/
def toFields (c : Claim) : Json.Fields :=
  [("name", .str c.name), ("source", c.source.toJson),
    ("principal_column", .str c.principalColumn), ("value_column", .str c.valueColumn)]
    ++ (if c.attributes.isEmpty then [] else [("attributes", Json.texts c.attributes)])

def toJson (c : Claim) : Json := .obj c.toFields

def fieldNames : List String :=
  ["name", "source", "principal_column", "value_column", "attributes"]

def decodeFields (r : Json.Record Json) : Json.Decoded Claim := do
  r.check [.of "name" Json.asString, .of "source" ClaimSource.decode,
    .of "principal_column" Json.asString, .of "value_column" Json.asString,
    .of "attributes" Json.asStrings]
  let name ← r.required "name" Json.asString
  let source ← r.required "source" ClaimSource.decode
  let principalColumn ← r.required "principal_column" Json.asString
  let valueColumn ← r.required "value_column" Json.asString
  let attributes ← r.optional "attributes" Json.asStrings []
  pure ⟨name, source, principalColumn, valueColumn, attributes⟩

def decode : Json → Json.Decoded Claim :=
  Json.asRecord .value "struct ClaimDefinition" "struct ClaimDefinition" fieldNames decodeFields

end Claim

end RowPolicy
