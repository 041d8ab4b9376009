import RowPolicy.Artifact.Body
import RowPolicy.Artifact.Naming
import RowPolicy.Plan.Compile
import RowPolicy.Sql.Quote

/-!
# Rendering of plans

Plans become SQL text. Columns are always qualified with the quoted name of the table, so that a
fragment means the same in a view, in an update and in the check of a new row.
-/

namespace RowPolicy

namespace Sql

/-- The function that yields the id of the principal. -/
def principalFunction : String := "tg_principal"

/-- A column of a row, given the quoted name of the row. -/
def columnOf (row column : String) : String := row ++ "." ++ quoteName column

/-- The columns that a query shows: those listed, or all of them. -/
def projection (row : String) (columns : List String) : String :=
  if columns.isEmpty then row ++ ".*"
  else String.intercalate ", " (columns.map (columnOf row))

def parameter (n : Nat) : String := "?" ++ Number.natText n

/-! ### Statements -/

def dropView (name : String) : String := "DROP VIEW IF EXISTS " ++ quoteName name

def selectAll (name : String) : String := "SELECT * FROM " ++ quoteName name

/-- Evaluate a condition on the row whose id is `?1`. -/
def storedRowCondition (condition table : String) : String :=
  "SELECT (" ++ condition ++ ") FROM " ++ quoteName table ++ " WHERE " ++ quoteName table
    ++ ".rowid = ?1"

def insert (table : String) (columns : List String) : String :=
  if columns.isEmpty then "INSERT INTO " ++ quoteName table ++ " DEFAULT VALUES"
  else
    "INSERT INTO " ++ quoteName table ++ " ("
      ++ String.intercalate ", " (columns.map quoteName) ++ ") VALUES ("
      ++ String.intercalate ", " ((List.range columns.length).map fun i => parameter (i + 1))
      ++ ")"

/-- Update the row with a key; the columns are bound in order and the key after them. -/
def update (table key : String) (columns : List String) (filter : String) : String :=
  "UPDATE " ++ quoteName table ++ " SET "
    ++ String.intercalate ", "
      (columns.zipIdx.map fun (c, i) => quoteName c ++ " = " ++ parameter (i + 1))
    ++ " WHERE " ++ columnOf (quoteName table) key ++ " = " ++ parameter (columns.length + 1)
    ++ " AND (" ++ filter ++ ")"

def delete (table key filter : String) : String :=
  "DELETE FROM " ++ quoteName table ++ " WHERE " ++ columnOf (quoteName table) key
    ++ " = ?1 AND (" ++ filter ++ ")"

end Sql

namespace Naming

open Sql

/-! ### Fragments -/

/-- Select the related ids of the principal's rows of a claim. -/
def relatedIds (n : Naming) (lookup : Lookup) : String :=
  let view := quoteName (n.claimView lookup.claim)
  "SELECT " ++ view ++ ".related_id FROM " ++ view ++ " WHERE CAST(" ++ view
    ++ ".principal_id AS TEXT) = " ++ principalFunction ++ "()"
    ++ match lookup.property with
      | none => ""
      | some filter =>
        " AND " ++ columnOf view filter.property ++ " IN ("
          ++ String.intercalate ", " (filter.allowed.map quoteLiteral) ++ ")"

mutual

/-- A condition on a row, given the quoted name of the row. -/
def fragment (n : Naming) (row : String) : Fragment → String
  | .always => "1"
  | .never => "0"
  | .literalEq column value =>
    match value with
    | .null => columnOf row column ++ " IS NULL"
    | v => columnOf row column ++ " = " ++ quoteLiteral v
  | .principalEq column =>
    "CAST(" ++ columnOf row column ++ " AS TEXT) = " ++ principalFunction ++ "()"
  | .inClaim column lookup => columnOf row column ++ " IN (" ++ n.relatedIds lookup ++ ")"
  | .all children =>
    if children.isEmpty then "1"
    else "(" ++ String.intercalate " AND " (fragments n row children) ++ ")"
  | .any children =>
    if children.isEmpty then "0"
    else "(" ++ String.intercalate " OR " (fragments n row children) ++ ")"

def fragments (n : Naming) (row : String) : List Fragment → List String
  | [] => []
  | f :: rest => fragment n row f :: fragments n row rest

end

/-! ### Views -/

/-- The name of a claim's rows inside its view. -/
def sourceName : String := quoteName "claim_source"

def sourceText : ClaimSource → String
  | .table name => quoteName name
  | .query sql => "(" ++ Text.trimEndChar ';' (Text.trim sql) ++ ")"

def claimColumns (c : Claim) : List String :=
  (columnOf sourceName c.principalColumn ++ " AS principal_id")
    :: (columnOf sourceName c.valueColumn ++ " AS related_id")
    :: c.attributes.map fun a => columnOf sourceName a ++ " AS " ++ quoteName a

def claimViewSql (n : Naming) (c : Claim) : String :=
  "CREATE VIEW " ++ quoteName (n.claimView c.name) ++ " AS SELECT "
    ++ String.intercalate ", " (claimColumns c) ++ " FROM " ++ sourceText c.source
    ++ " AS " ++ sourceName

def readViewSql (n : Naming) (v : ReadView) : String :=
  let row := quoteName v.table
  "CREATE VIEW " ++ quoteName (n.readView v.table) ++ " AS SELECT "
    ++ projection row v.projection ++ " FROM " ++ row ++ " WHERE " ++ n.fragment row v.filter

/-! ### Accessors and guards -/

/-- The name of the row that holds a candidate value. -/
def candidateName : String := quoteName "candidate"

def renderCheck (n : Naming) (c : Check) : RenderedCheck where
  column := c.column
  reason := c.describe
  sql := "SELECT (" ++ n.fragment candidateName c.fragment ++ ") FROM (SELECT ?1 AS "
    ++ quoteName c.column ++ ") AS " ++ candidateName

/-- The conditions of an accessor's query: the parameters in order, then the literals. -/
def accessorClauses (n : Naming) (a : Accessor) : List String :=
  let row := quoteName a.table
  (a.parameters.zipIdx.map fun (c, i) => columnOf row c ++ " = " ++ parameter (i + 1))
    ++ a.conditions.filterMap fun
      | .check _ => none
      | .baked column value => some (n.fragment row (.literalEq column value))

def accessorQuery (n : Naming) (a : Accessor) : String :=
  let row := quoteName a.table
  let clauses := n.accessorClauses a
  "SELECT " ++ projection row a.projection ++ " FROM " ++ row ++ " WHERE "
    ++ if clauses.isEmpty then "1" else String.intercalate " AND " clauses

def renderAccessor (n : Naming) (a : Accessor) : ArtifactBody :=
  .accessor a.parameters (a.checks.map n.renderCheck) (n.accessorQuery a)

def conditionReason (c : GuardCondition) : String :=
  match c.fragment with
  | .never => "no create is permitted by this rule"
  | .literalEq _ value => "must equal " ++ value.display
  | .principalEq _ => Check.describe ⟨c.label, .principal⟩
  | .inClaim _ lookup => Check.describe ⟨c.label, .member lookup⟩
  | _ => "does not satisfy the create rule"

def renderGuard (n : Naming) (g : Guard) : ArtifactBody :=
  let row := quoteName g.table
  match g with
  | .create _ columns conditions =>
    .createGuard columns (conditions.map fun c =>
      ⟨c.label, conditionReason c, n.fragment row c.fragment⟩)
  | .restrict _ _ columns key filter => .restrictGuard columns key (n.fragment row filter)

end Naming

/-! ### Artifacts of a definition -/

structure Rendered where
  identifier : String
  kind : ArtifactKind
  target : String
  operation : Option Operation
  body : ArtifactBody
  deriving DecidableEq, Repr, Inhabited

def Rendered.toJson (r : Rendered) : Json :=
  .obj [("identifier", .str r.identifier), ("body", r.body.toJson),
    ("fingerprint", .str r.body.fingerprint)]

namespace Naming

/-- The artifacts of a rule: a view and perhaps an accessor, or a guard. -/
def renderRule (n : Naming) : CompiledRule → List Rendered
  | .read view accessor =>
    ⟨n.readView view.table, .readView, view.table, some .read, .view (n.readViewSql view)⟩
      :: match accessor with
        | .ok a =>
          [⟨n.accessor a.table, .readAccessor, a.table, some .read, n.renderAccessor a⟩]
        | .error _ => []
  | .write g =>
    [⟨n.guard g.table g.operation, .writeGuard, g.table, some g.operation, n.renderGuard g⟩]

def renderClaim (n : Naming) (c : Claim) : Rendered :=
  ⟨n.claimView c.name, .claimView, c.name, none, .view (n.claimViewSql c)⟩

end Naming

end RowPolicy
