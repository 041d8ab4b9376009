import RowPolicy.Claim
import RowPolicy.Keyed
import RowPolicy.Rule

/-!
# Catalogs

A catalog holds the tables, claims and rules that definitions are resolved against. Names are
compared exactly. Rules depend on each other and on claims: a write rule needs the read rule of its
table, and a claim cannot go while a rule refers to it.
-/

namespace RowPolicy

/-- How updates and deletes address a row of a table. -/
inductive RowKey where
  /-- A primary key of one column. -/
  | column (name : String)
  /-- No primary key: the implicit row id. -/
  | rowId
  /-- A primary key of several columns, which cannot be addressed. -/
  | composite (columns : List String)
  deriving DecidableEq, Repr, Inhabited

/-- The columns and the key of a table. -/
structure TableShape where
  name : String
  columns : List String
  key : RowKey
  deriving DecidableEq, Repr, Inhabited

def TableShape.hasColumn (t : TableShape) (column : String) : Bool := t.columns.contains column

def RowKey.toJson : RowKey → Json
  | .column name => .obj [("column", .str name)]
  | .rowId => .str "rowid"
  | .composite columns => .obj [("composite", Json.texts columns)]

def TableShape.toJson (t : TableShape) : Json :=
  .obj [("name", .str t.name), ("columns", Json.texts t.columns), ("key", t.key.toJson)]

structure Catalog where
  tables : List TableShape := []
  claims : List Claim := []
  rules : List Rule := []
  deriving Inhabited

namespace Catalog

/-! ### Contents -/

def empty : Catalog := {}

def insertTable (c : Catalog) (t : TableShape) : Catalog :=
  { c with tables := Keyed.insert Keyed.textLt TableShape.name t c.tables }

def insertClaim (c : Catalog) (claim : Claim) : Catalog :=
  { c with claims := Keyed.insert Keyed.textLt Claim.name claim c.claims }

def removeClaim (c : Catalog) (name : String) : Catalog :=
  { c with claims := Keyed.erase Claim.name name c.claims }

def insertRule (c : Catalog) (r : Rule) : Catalog :=
  { c with rules := Keyed.insert RuleKey.lt Rule.key r c.rules }

def removeRule (c : Catalog) (k : RuleKey) : Catalog :=
  { c with rules := Keyed.erase Rule.key k c.rules }

def table? (c : Catalog) (name : String) : Option TableShape :=
  Keyed.get? TableShape.name name c.tables

def claim? (c : Catalog) (name : String) : Option Claim := Keyed.get? Claim.name name c.claims

def rule? (c : Catalog) (k : RuleKey) : Option Rule := Keyed.get? Rule.key k c.rules

def hasRule (c : Catalog) (k : RuleKey) : Bool := (c.rule? k).isSome

/-- The operations that have a rule on a table, reads first. -/
def operationsFor (c : Catalog) (table : String) : List Operation :=
  Operation.all.filter fun op => c.hasRule ⟨table, op⟩

/-- The rules that refer to a claim, in the order of their keys. -/
def rulesReferencing (c : Catalog) (claim : String) : List Rule :=
  c.rules.filter fun r => r.references claim

/-! ### Dependencies -/

/-- A write rule needs the read rule of its table. -/
def checkDefine (c : Catalog) (r : Rule) : Checked Unit :=
  if r.operation.isWrite && !c.hasRule ⟨r.table, .read⟩ then
    .error (.missingReadRule r.table r.operation)
  else .ok ()

/-- The read rule of a table stays while the table has write rules. -/
def checkDropRule (c : Catalog) (k : RuleKey) : Checked Unit :=
  if k.operation == .read then
    match (c.operationsFor k.table).find? Operation.isWrite with
    | some write => .error (.missingReadRule k.table write)
    | none => .ok ()
  else .ok ()

/-- A claim stays while rules refer to it. -/
def checkDropClaim (c : Catalog) (claim : String) : Checked Unit :=
  let referencing := c.rulesReferencing claim
  if referencing.isEmpty then .ok () else .error (.claimInUse claim (referencing.map Rule.key))

end Catalog

end RowPolicy
