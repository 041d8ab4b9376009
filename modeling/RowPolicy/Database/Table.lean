import RowPolicy.Database.Affinity
import RowPolicy.Database.Error
import RowPolicy.Keyed
import RowPolicy.Sql.Tree
import RowPolicy.Text.Sorted

/-!
# Tables

A table holds rows in the order of their row ids. A primary key that is one column of type
`INTEGER` is the row id itself. A row is checked before it is stored: values that must be there
first, then the row id, then the columns that must be unique.
-/

namespace RowPolicy

structure Column where
  name : String
  type : String := ""
  notNull : Bool := false
  unique : Bool := false
  default : Cell := .null
  deriving DecidableEq, Repr, Inhabited

def Column.affinity (c : Column) : Affinity := .ofType c.type

structure Row where
  id : Int
  cells : List Cell
  deriving DecidableEq, Repr, Inhabited

structure Table where
  name : String
  columns : List Column
  key : List String := []
  withoutRowId : Bool := false
  rows : List Row := []
  deriving DecidableEq, Repr, Inhabited

namespace Table

def columnIndex? (t : Table) (name : String) : Option Nat :=
  t.columns.findIdx? fun c => Text.sameName c.name name

def keyIndexes (t : Table) : List Nat := t.key.filterMap t.columnIndex?

/-- Whether a column has exactly the type that makes a key the row id. -/
def isRowIdType (c : Column) : Bool := Text.foldCase c.type == "integer"

/-- The place of the column that is the row id. -/
def rowIdIndex? (t : Table) : Option Nat :=
  match t.keyIndexes with
  | [i] =>
    if !t.withoutRowId && (t.columns[i]?.map isRowIdType).getD false then some i else none
  | _ => none

/-- The sets of columns that must be unique, in the order in which they are checked: the key, then
the single columns from last to first. -/
def uniqueSets (t : Table) : List (List Nat) :=
  let singles := (t.columns.zipIdx.filter fun (c, _) => c.unique).map fun (_, i) => [i]
  (if t.key.isEmpty || t.rowIdIndex?.isSome then [] else [t.keyIndexes]) ++ singles.reverse

def areDistinct : List String → Bool
  | [] => true
  | name :: rest => !rest.any (Text.sameName name) && areDistinct rest

/-- Whether a table can be created: its columns are distinct, its key is among them, and a table
without row ids has a key. -/
def isWellFormed (t : Table) : Bool :=
  areDistinct (t.columns.map Column.name) && t.key.all (fun c => (t.columnIndex? c).isSome)
    && !(t.withoutRowId && t.key.isEmpty)

def columnName (t : Table) (i : Nat) : String := (t.columns[i]?.map Column.name).getD ""

/-! ### Checks -/

def mustHaveValue (t : Table) (i : Nat) (c : Column) : Bool :=
  if t.rowIdIndex? == some i then false
  else c.notNull || (t.withoutRowId && t.keyIndexes.contains i)

/-- Refuse a row without a value that must be there. -/
def checkNotNull (t : Table) (cells : List Cell) : Except StorageError Unit :=
  match (t.columns.zip cells).zipIdx.find? fun ((c, v), i) => t.mustHaveValue i c && v.isNull with
  | some ((c, _), _) => .error (.notNull t.name c.name)
  | none => .ok ()

/-- Whether two rows agree on columns, none of which is null. -/
def agree (is : List Nat) (a b : List Cell) : Bool :=
  is.all fun i =>
    match a[i]?, b[i]? with
    | some x, some y => !x.isNull && !y.isNull && x.same y
    | _, _ => false

/-- Refuse a row id or unique values that another row has. -/
def checkUnique (t : Table) (others : List Row) (row : Row) : Except StorageError Unit :=
  if !t.withoutRowId && others.any (fun r => r.id == row.id) then
    .error (.unique t.name [(t.rowIdIndex?.map t.columnName).getD "rowid"])
  else
    match t.uniqueSets.find? fun is => others.any fun r => agree is r.cells row.cells with
    | some is => .error (.unique t.name (is.map t.columnName))
    | none => .ok ()

def checkRow (t : Table) (others : List Row) (row : Row) : Except StorageError Unit := do
  t.checkNotNull row.cells
  t.checkUnique others row

/-! ### Changes -/

def nextRowId (t : Table) : Int :=
  match t.rows.map Row.id with
  | [] => 1
  | id :: ids => ids.foldl max id + 1

def rowIdOf (c : Cell) : Except StorageError Int :=
  match c.convert .integer with
  | .int i => .ok i
  | _ => .error .typeMismatch

def place (t : Table) (row : Row) : List Row :=
  if t.withoutRowId then t.rows ++ [row]
  else Text.insertByKey (fun a b : Int => a < b) Row.id row t.rows

/-- The value of each column of a new row: the one given for it, or its default. -/
def newCells (t : Table) (given : List (Nat × Cell)) : List Cell :=
  t.columns.zipIdx.map fun (c, i) => ((given.lookup i).getD c.default).store c.affinity

/-- Insert a row with the given values and perhaps a row id; the new row id is returned. A column
that is the row id has no default. -/
def insert (t : Table) (given : List (Nat × Cell)) (id : Option Cell) :
    Except StorageError (Table × Int) := do
  let cells := t.newCells given
  let wanted : Cell := match t.rowIdIndex? with
    | some i => (given.lookup i).getD .null
    | none => id.getD .null
  let rowId ← if t.withoutRowId || wanted.isNull then pure t.nextRowId else rowIdOf wanted
  let cells := match t.rowIdIndex? with
    | some i => cells.set i (.int rowId)
    | none => cells
  let row : Row := ⟨rowId, cells⟩
  t.checkRow t.rows row
  pure ({ t with rows := t.place row }, rowId)

def changedCells (t : Table) (cells : List Cell) (changes : List (Nat × Cell)) : List Cell :=
  changes.foldl (fun cells (i, v) =>
    cells.set i (v.store ((t.columns[i]?.map Column.affinity).getD .none))) cells

def update (t : Table) (old : Row) (changes : List (Nat × Cell)) (id : Option Cell) :
    Except StorageError Table := do
  let wanted : Option Cell := match t.rowIdIndex? with
    | some i => (changes.lookup i).orElse fun _ => id
    | none => id
  let rowId ← match wanted with
    | none => pure old.id
    | some v => rowIdOf v
  let cells := t.changedCells old.cells changes
  let cells := match t.rowIdIndex? with
    | some i => cells.set i (.int rowId)
    | none => cells
  let rest := { t with rows := t.rows.erase old }
  let row : Row := ⟨rowId, cells⟩
  t.checkRow rest.rows row
  pure { t with rows := rest.place row }

end Table

/-- A view: its name, the text that created it, and its query. -/
structure View where
  name : String
  sql : String
  query : Sql.Query
  deriving Inhabited

/-- Tables and views, whose names are distinct without regard to case. -/
structure Database where
  tables : List Table := []
  views : List View := []
  deriving Inhabited

namespace Database

def table? (db : Database) (name : String) : Option Table :=
  db.tables.find? fun t => Text.sameName t.name name

def view? (db : Database) (name : String) : Option View :=
  db.views.find? fun v => Text.sameName v.name name

def hasObject (db : Database) (name : String) : Bool :=
  (db.table? name).isSome || (db.view? name).isSome

/-- Whether a name is reserved for the database itself. -/
def isReserved (name : String) : Bool := "sqlite_".toList.isPrefixOf (Text.foldCase name).toList

def setTable (db : Database) (t : Table) : Database :=
  { db with tables := db.tables.map fun u => if u.name == t.name then t else u }

def createTable (db : Database) (t : Table) : Except StorageError Database :=
  if isReserved t.name || db.hasObject t.name || !t.isWellFormed then .error .invalid
  else .ok { db with tables := db.tables ++ [t] }

def dropTable (db : Database) (name : String) : Except StorageError Database :=
  if (db.table? name).isSome then
    .ok { db with tables := db.tables.filter fun t => !Text.sameName t.name name }
  else .error .invalid

def createView (db : Database) (v : View) : Except StorageError Database :=
  if isReserved v.name || db.hasObject v.name then .error .invalid
  else .ok { db with views := db.views ++ [v] }

/-- Drop a view; a table with that name is refused. -/
def dropView (db : Database) (name : String) (ifPresent : Bool) : Except StorageError Database :=
  if (db.view? name).isSome then
    .ok { db with views := db.views.filter fun v => !Text.sameName v.name name }
  else if ifPresent && (db.table? name).isNone then .ok db
  else .error .invalid

end Database

end RowPolicy
