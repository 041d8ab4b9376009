import RowPolicy.Predicate.Json

/-!
# Rules

A rule names a table, an operation, the columns that a read shows and a predicate. Without a
predicate a read is unrestricted and a write is always refused.
-/

namespace RowPolicy

/-- What is declared for one operation on one table. -/
structure Rule where
  table : String
  operation : Operation
  /-- The columns a read shows, in order; all of them if the list is empty. -/
  projection : List String := []
  predicate : Option Predicate := none
  deriving Inhabited, BEq

namespace Rule

def key (r : Rule) : RuleKey := ⟨r.table, r.operation⟩

def references (r : Rule) (claim : String) : Bool :=
  match r.predicate with
  | some p => p.claimList.contains claim
  | none => false

/-- Check the columns of a projection, given those before them. -/
def validateProjection (table : String) (seen : List String) : List String → Checked Unit
  | [] => .ok ()
  | column :: rest => do
    checkName .column column
    if seen.contains column then throw (.duplicateProjection table column)
    validateProjection table (column :: seen) rest

def validate (r : Rule) : Checked Unit := do
  checkName .table r.table
  if r.operation.isWrite && !r.projection.isEmpty then
    throw (.projectionOnWrite r.table r.operation)
  validateProjection r.table [] r.projection
  match r.predicate with
  | some p => p.validate
  | none => pure ()

/-! ### JSON form -/

/-- The fields of the JSON form; an empty projection and an absent predicate are left out. -/
def toFields (r : Rule) : Json.Fields :=
  [("table", .str r.table), ("operation", .str r.operation.text)]
    ++ (if r.projection.isEmpty then [] else [("projection", Json.texts r.projection)])
    ++ (match r.predicate with
        | some p => [("predicate", p.toJson)]
        | none => [])

def toJson (r : Rule) : Json := .obj r.toFields

def fieldNames : List String := ["table", "operation", "projection", "predicate"]

def decodeFields (origin : Origin) (r : Json.Record Json) : Json.Decoded Rule := do
  let asPredicate := Json.asOption (Predicate.decode origin)
  r.check [.of "table" Json.asString, .of "operation" (Operation.decode origin),
    .of "projection" Json.asStrings, .of "predicate" asPredicate]
  let table ← r.required "table" Json.asString
  let operation ← r.required "operation" (Operation.decode origin)
  let projection ← r.optional "projection" Json.asStrings []
  let predicate ← r.optional "predicate" asPredicate none
  pure ⟨table, operation, projection, predicate⟩

def decode : Json → Json.Decoded Rule :=
  Json.asRecord .value "struct RuleDefinition" "struct RuleDefinition" fieldNames
    (decodeFields .value)

end Rule

end RowPolicy
