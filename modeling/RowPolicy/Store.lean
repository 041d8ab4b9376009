import RowPolicy.Access.Error
import RowPolicy.Artifact.Record
import RowPolicy.Database.Statement

/-!
# The policy store

Rules, claims and artifacts are kept in three tables of the database that they protect. Each row
holds a record as JSON text beside the columns that it is looked up by.
-/

namespace RowPolicy.Store

abbrev Stored := Except StoreError

def ofStorage {α : Type} (r : Bound α) : Stored α := r.mapError .storage

/-! ### Tables -/

def textColumn (name : String) (notNull unique : Bool) : Column :=
  { name := name, type := "TEXT", notNull := notNull, unique := unique }

def ruleTable : Table :=
  { name := "tg_rules"
    columns := [textColumn "table_name" true false, textColumn "operation" true false,
      textColumn "rule_id" true true, textColumn "record" true false]
    key := ["table_name", "operation"] }

def claimTable : Table :=
  { name := "tg_claims"
    columns := [textColumn "name" false false, textColumn "claim_id" true true,
      textColumn "record" true false]
    key := ["name"] }

def artifactTable : Table :=
  { name := "tg_artifacts"
    columns := [textColumn "identifier" false false, textColumn "owner" true false,
      textColumn "kind" true false, textColumn "target" true false,
      textColumn "operation" false false, textColumn "fingerprint" true false,
      textColumn "record" true false]
    key := ["identifier"] }

def tables : List Table := [ruleTable, claimTable, artifactTable]

def tableNames : List String := tables.map Table.name

def createAbsent (db : Database) (t : Table) : Bound Database :=
  if db.hasObject t.name then .ok db else db.createTable t

def hasOwners (db : Database) : Bool :=
  match db.table? artifactTable.name with
  | some t => (t.columnIndex? "owner").isSome
  | none => false

/-- Create the tables that are not there. Those created before a failure stay. -/
def migrate (db : Database) : Database × Stored Unit :=
  match tables.foldlM createAbsent db with
  | .ok db => (db, if hasOwners db then .ok () else .error (.storage .invalid))
  | .error e => (db, .error (.storage e))

def isMigrated (db : Database) : Bool :=
  tableNames.all fun name => db.tables.any fun t => t.name == name

/-! ### Rows -/

/-- A table of the store, which must have the columns named. -/
def table (db : Database) (t : Table) (columns : List String) : Bound Table :=
  match db.table? t.name with
  | none => .error .invalid
  | some t => if columns.all fun c => (t.columnIndex? c).isSome then .ok t else .error .invalid

def cell (t : Table) (r : Row) (column : String) : Cell :=
  match t.columnIndex? column with
  | some i => r.cells.getD i .null
  | none => .null

def hasTexts (t : Table) (wanted : List (String × String)) (r : Row) : Bool :=
  wanted.all fun (column, s) => (cell t r column).same (.text s)

def recordText (t : Table) (r : Row) : Stored String :=
  match cell t r "record" with
  | .text s => .ok s
  | _ => .error (.storage .wrongColumnType)

def readRecord {α : Type} (decode : Json.Draft → Json.Decoded α) (text : String) : Stored α :=
  (Json.Draft.decodeText decode text).mapError .unreadable

/-- Read the records of rows in order; the texts come first. -/
def readRecords {α : Type} (decode : Json.Draft → Json.Decoded α) (t : Table) (rows : List Row) :
    Stored (List α) := do
  let texts ← rows.mapM (recordText t)
  texts.mapM (readRecord decode)

def readFirst {α : Type} (decode : Json.Draft → Json.Decoded α) (t : Table) (rows : List Row) :
    Stored (Option α) :=
  match rows with
  | [] => .ok none
  | r :: _ => do
    let text ← recordText t r
    let a ← readRecord decode text
    pure (some a)

/-- The rows with given texts in columns. -/
def rowsWith (t : Table) (wanted : List (String × String)) : List Row :=
  t.rows.filter (hasTexts t wanted)

def ordered (t : Table) (column : String) (rows : List Row) : List Row :=
  Text.sortByKey (fun a b : Cell => a.order b == .lt) (fun r => cell t r column) rows

def placed (t : Table) (values : List (String × Cell)) : List (Nat × Cell) :=
  values.filterMap fun (column, v) => (t.columnIndex? column).map fun i => (i, v)

/-- Whether columns are those of a uniqueness constraint. -/
def areUnique (t : Table) (columns : List String) : Bool :=
  let places := columns.filterMap t.columnIndex?
  t.uniqueSets.any fun set =>
    set.length == places.length && places.all fun i => set.contains i

/-- Insert a row, or change the one with the same key in place. -/
def upsert (db : Database) (t : Table) (key values : List (String × Cell)) : Bound Database := do
  let t ← table db t ((key ++ values).map (·.1))
  if !areUnique t (key.map (·.1)) then throw .invalid
  let keyPlaces := placed t key
  let matching := t.rows.find? fun r =>
    keyPlaces.all fun (i, v) => (r.cells.getD i .null).same v
  match matching with
  | some r =>
    let t ← t.update r (placed t values) none
    pure (db.setTable t)
  | none =>
    let (t, _) ← t.insert (placed t (key ++ values)) none
    pure (db.setTable t)

/-- Insert a row in place of those that it cannot stand beside. -/
def replace (db : Database) (t : Table) (values : List (String × Cell)) : Bound Database := do
  let t ← table db t (values.map (·.1))
  let given := placed t values
  let cells := t.newCells given
  let kept := t.rows.filter fun r => !t.uniqueSets.any fun set => Table.agree set r.cells cells
  let (t, _) ← { t with rows := kept }.insert given none
  pure (db.setTable t)

/-- Delete the rows with given texts; whether there was one. -/
def deleteRows (db : Database) (t : Table) (wanted : List (String × String)) :
    Stored (Database × Bool) := do
  let t ← ofStorage (table db t (wanted.map (·.1)))
  let kept := t.rows.filter fun r => !hasTexts t wanted r
  pure (db.setTable { t with rows := kept }, kept.length != t.rows.length)

/-! ### Rules -/

def saveRule (db : Database) (r : RuleRecord) : Stored Database :=
  ofStorage (upsert db ruleTable
    [("table_name", .text r.body.table), ("operation", .text r.body.operation.text)]
    [("rule_id", .text r.id.text), ("record", .text r.toJson.compact)])

def rule (db : Database) (k : RuleKey) : Stored (Option RuleRecord) := do
  let t ← ofStorage (table db ruleTable ["record", "table_name", "operation"])
  readFirst RuleRecord.decode t
    (rowsWith t [("table_name", k.table), ("operation", k.operation.text)])

def rules (db : Database) : Stored (List RuleRecord) := do
  let t ← ofStorage (table db ruleTable ["record"])
  let rs ← readRecords RuleRecord.decode t t.rows
  pure (Text.sortByKey RuleKey.lt (fun r : RuleRecord => r.body.key) rs)

def rulesFor (db : Database) (tableName : String) : Stored (List RuleRecord) := do
  let t ← ofStorage (table db ruleTable ["record", "table_name"])
  let rs ← readRecords RuleRecord.decode t
    (ordered t "operation" (rowsWith t [("table_name", tableName)]))
  pure (Text.sortByKey (fun a b : Nat => a < b) (fun r : RuleRecord => r.body.operation.rank) rs)

def deleteRule (db : Database) (k : RuleKey) : Stored (Database × Bool) :=
  deleteRows db ruleTable [("table_name", k.table), ("operation", k.operation.text)]

/-! ### Claims -/

def saveClaim (db : Database) (c : ClaimRecord) : Stored Database :=
  ofStorage (upsert db claimTable [("name", .text c.body.name)]
    [("claim_id", .text c.id.text), ("record", .text c.toJson.compact)])

def claim (db : Database) (name : String) : Stored (Option ClaimRecord) := do
  let t ← ofStorage (table db claimTable ["record", "name"])
  readFirst ClaimRecord.decode t (rowsWith t [("name", name)])

def claims (db : Database) : Stored (List ClaimRecord) := do
  let t ← ofStorage (table db claimTable ["record", "name"])
  readRecords ClaimRecord.decode t (ordered t "name" t.rows)

def deleteClaim (db : Database) (name : String) : Stored (Database × Bool) :=
  deleteRows db claimTable [("name", name)]

/-! ### Artifacts -/

def operationCell : Option Operation → Cell
  | some op => .text op.text
  | none => .null

def saveArtifact (db : Database) (a : ArtifactRecord) : Stored Database :=
  ofStorage (replace db artifactTable
    [("identifier", .text a.identifier), ("owner", .text a.owner.text),
      ("kind", .text a.kind.text), ("target", .text a.target),
      ("operation", operationCell a.operation), ("fingerprint", .text a.fingerprint),
      ("record", .text a.toJson.compact)])

def decodeArtifact : Json.Draft → Json.Decoded ArtifactRecord := ArtifactRecord.decode .text

def artifact (db : Database) (identifier : String) : Stored (Option ArtifactRecord) := do
  let t ← ofStorage (table db artifactTable ["record", "identifier"])
  readFirst decodeArtifact t (rowsWith t [("identifier", identifier)])

/-- The first artifact of a kind for a target and an operation, or for no operation. -/
def findArtifact (db : Database) (kind : ArtifactKind) (target : String)
    (operation : Option Operation) : Stored (Option ArtifactRecord) := do
  let t ← ofStorage (table db artifactTable ["record", "kind", "target", "operation"])
  readFirst decodeArtifact t
    ((rowsWith t [("kind", kind.text), ("target", target)]).filter fun r =>
      (cell t r "operation").same (operationCell operation))

/-- The artifacts of a definition in the order of their identifiers. -/
def artifactsOf (db : Database) (owner : Uuid) : Stored (List ArtifactRecord) := do
  let t ← ofStorage (table db artifactTable ["record", "owner", "identifier"])
  readRecords decodeArtifact t (ordered t "identifier" (rowsWith t [("owner", owner.text)]))

def artifacts (db : Database) : Stored (List ArtifactRecord) := do
  let t ← ofStorage (table db artifactTable ["record", "identifier"])
  readRecords decodeArtifact t (ordered t "identifier" t.rows)

def deleteArtifact (db : Database) (identifier : String) : Stored (Database × Bool) :=
  deleteRows db artifactTable [("identifier", identifier)]

end RowPolicy.Store
