import RowPolicy.Store

/-!
# Tables that rules may target

The catalog knows the tables of the live database. Tables of the database itself, of the store and
those named like artifacts are left out.
-/

namespace RowPolicy

def Table.shape (t : Table) : TableShape where
  name := t.name
  columns := t.columns.map Column.name
  key :=
    match t.keyIndexes.map t.columnName with
    | [] => .rowId
    | [c] => .column c
    | cs => .composite cs

namespace Database

def isUserTable (n : Naming) (name : String) : Bool :=
  !("sqlite_".toList.isPrefixOf name.toList) && !Store.tableNames.contains name
    && !n.isGenerated name

def userTables (db : Database) (n : Naming) : List String :=
  (Text.sortByKey Keyed.textLt id (db.tables.map Table.name)).filter (isUserTable n)

def shape? (db : Database) (name : String) : Option TableShape :=
  (db.tables.find? fun t => t.name == name).map Table.shape

/-- The catalog of the tables that rules may target. -/
def catalog (db : Database) (n : Naming) : Catalog :=
  ((db.userTables n).filterMap db.shape?).foldl Catalog.insertTable Catalog.empty

end Database

end RowPolicy
