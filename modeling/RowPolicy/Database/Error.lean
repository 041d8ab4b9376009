/-!
# Storage errors
-/

namespace RowPolicy

/-- Why a database refuses a statement or its result cannot be used. -/
inductive StorageError where
  /-- A statement that cannot be understood or names something unknown. -/
  | invalid
  /-- Two rows with the same values in columns that must be unique. -/
  | unique (table : String) (columns : List String)
  /-- No value in a column that must have one. -/
  | notNull (table column : String)
  /-- A row id that is not an integer. -/
  | typeMismatch
  /-- Another connection is writing. -/
  | busy
  | noRows
  /-- A value of a kind that is not wanted. -/
  | wrongColumnType
  /-- A number of parameters other than the statement has. -/
  | wrongParameterCount
  /-- A statement that yields rows where none are wanted. -/
  | returnedRows
  deriving DecidableEq, Repr, Inhabited

namespace StorageError

def constraint? : StorageError → Option String
  | .unique table columns =>
    some ("UNIQUE constraint failed: "
      ++ String.intercalate ", " (columns.map fun c => table ++ "." ++ c))
  | .notNull table column => some ("NOT NULL constraint failed: " ++ table ++ "." ++ column)
  | _ => none

def message (e : StorageError) : String :=
  match e with
  | .invalid => "SQL logic error"
  | .unique _ _ => e.constraint?.getD ""
  | .notNull _ _ => e.constraint?.getD ""
  | .typeMismatch => "datatype mismatch"
  | .busy => "database is locked"
  | .noRows => "Query returned no rows"
  | .wrongColumnType => "Invalid column type"
  | .wrongParameterCount => "Wrong number of parameters passed to query"
  | .returnedRows => "Execute returned results - did you mean to call query?"

end StorageError

end RowPolicy
