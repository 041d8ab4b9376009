import RowPolicy.Database.Statement

/-!
# Images of databases

A database as a JSON value: the tables with their columns and rows, and the texts of the views. A
real is written as text, and bytes as numbers.
-/

namespace RowPolicy

/-! ### Cells -/

def Cell.image : Cell → Json
  | .real x => .obj [("real", .str x.jsonText)]
  | .blob bytes => .obj [("blob", .arr (bytes.map fun b => .int b.toNat))]
  | c => c.toJson

def Cell.byteOf : Json → UInt8
  | .int i => UInt8.ofNat i.toNat
  | _ => 0

/-- The cell of an image. Numbers and truth values may also stand as such. -/
def Cell.ofImage : Json → Cell
  | .obj [("blob", .arr bytes)] => .blob (bytes.map Cell.byteOf)
  | .obj [("real", .str s)] => ((Binary64.parse? s).map Cell.real).getD .null
  | j => (Cell.ofJson? j).getD .null

/-! ### Tables -/

def Column.image (c : Column) : Json :=
  .obj [("name", .str c.name), ("type", .str c.type), ("not_null", .bool c.notNull),
    ("unique", .bool c.unique), ("default", c.default.image)]

def Column.ofImage (j : Json) : Column where
  name := j.textAt "name"
  type := j.textAt "type"
  notNull := j.flagAt "not_null"
  unique := j.flagAt "unique"
  default := ((j.field? "default").map Cell.ofImage).getD .null

def Table.image (t : Table) : Json :=
  .obj [("name", .str t.name), ("columns", .arr (t.columns.map Column.image)),
    ("key", Json.texts t.key), ("without_rowid", .bool t.withoutRowId),
    ("ids", .arr (t.rows.map fun r => .int r.id)),
    ("rows", .arr (t.rows.map fun r => .arr (r.cells.map Cell.image)))]

/-- The table of an image, without its rows. -/
def Table.ofImage (j : Json) : Table where
  name := j.textAt "name"
  columns := (j.itemsAt "columns").map Column.ofImage
  key := (j.itemsAt "key").map Json.textOf
  withoutRowId := j.flagAt "without_rowid"

def Row.cellsOfImage : Json → List Cell
  | .arr cells => cells.map Cell.ofImage
  | _ => []

namespace Database

/-- Insert rows by position, each perhaps with a row id. Those before a failure stay. -/
def fill (db : Database) (name : String) :
    List (List Cell × Option Cell) → Database × Bound Unit
  | [] => (db, .ok ())
  | (cells, id) :: rest =>
    match db.table? name with
    | none => (db, .error .invalid)
    | some t =>
      if cells.length != t.columns.length then (db, .error .invalid)
      else
        match t.insert (cells.zipIdx.map fun (c, i) => (i, c)) id with
        | .error e => (db, .error e)
        | .ok (t, _) => fill (db.setTable t) name rest

/-- Pair rows with the row ids given for them. -/
def withIds (rows ids : List Json) : List (List Cell × Option Cell) :=
  rows.zipIdx.map fun (row, i) => (Row.cellsOfImage row, ids[i]?.map Cell.ofImage)

def addTable (db : Database) (j : Json) : Database × Bound Unit :=
  match db.createTable (Table.ofImage j) with
  | .error e => (db, .error e)
  | .ok db => db.fill (j.textAt "name") (withIds (j.itemsAt "rows") (j.itemsAt "ids"))

def addView (db : Database) (sql : String) : Database :=
  match db.execute {} sql with
  | .ok (db, _) => db
  | .error _ => db

def image (db : Database) : Json :=
  .obj [("tables", .arr (db.tables.map Table.image)),
    ("views", Json.texts (db.views.map View.sql))]

def ofImage (j : Json) : Database :=
  let db := (j.itemsAt "tables").foldl (fun db t => (db.addTable t).1) {}
  ((j.itemsAt "views").map Json.textOf).foldl addView db

end Database

end RowPolicy
