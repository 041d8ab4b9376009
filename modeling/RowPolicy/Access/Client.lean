import RowPolicy.Principal
import RowPolicy.Store

/-!
# Guarded access

Callers read and write through the artifacts in the registry and never see a predicate. A read goes
through the filtered view; a fetch checks the caller's values one by one first; a create checks the
row as it was stored; an update or delete is restricted to the rows that the rule admits. Where
there is no artifact, there is no rule, and the request is refused.
-/

namespace RowPolicy

abbrev Accessed := Except AccessError

/-- A request: the caller, the table, whether the store was there, and whether another connection
is writing. -/
structure Request where
  principal : Principal
  table : String
  ready : Bool
  busy : Bool := false
  deriving Inhabited

namespace Request

def ofStorage {α : Type} (r : Bound α) : Accessed α := r.mapError fun e => .store (.storage e)

def env (q : Request) (params : List Cell) : Env := ⟨params, q.principal.id⟩

def artifact (q : Request) (db : Database) (kind : ArtifactKind) (operation : Operation) :
    Accessed (Option ArtifactRecord) :=
  if q.ready then
    (Store.findArtifact db kind q.table (some operation)).mapError .store
  else .ok none

/-- The rows of a query, each as a record; of columns with the same name the last one counts. -/
def select (q : Request) (db : Database) (sql : String) (params : List Cell) :
    Accessed (List Json.Fields) := do
  let (names, rows) ← ofStorage (db.select true (q.env params) sql)
  pure (rows.map fun row => Json.Fields.merge (names.zip (row.map Cell.toJson)))

/-- Whether a query yields a number other than zero in its first row. -/
def holds (q : Request) (db : Database) (sql : String) (params : List Cell) : Accessed Bool := do
  let (_, rows) ← ofStorage (db.select true (q.env params) sql)
  match rows with
  | [] => throw (.store (.storage .noRows))
  | row :: _ =>
    match row.headD .null with
    | .null => pure false
    | .int i => pure (i != 0)
    | _ => throw (.store (.storage .wrongColumnType))

def execute (q : Request) (db : Database) (sql : String) (params : List Cell) :
    Accessed (Database × Database.Effect) := do
  let p ← ofStorage (db.prepare true sql)
  ofStorage (Database.checkParams p (q.env params))
  if q.busy then throw (.store (.storage .busy))
  ofStorage (db.run (q.env params) p.statement)

def cellOf (column : String) (value : Json) : Accessed Cell :=
  match Cell.ofJson? value with
  | some c => .ok c
  | none => .error (.unsupportedValue column)

def cellsOf (row : Json.Fields) : Accessed (List Cell) :=
  row.mapM fun (column, value) => cellOf column value

def param (q : Request) (params : Json.Fields) (column : String) : Accessed Cell :=
  match Json.Fields.get? column params with
  | some value => cellOf column value
  | none => .error (.missingParameter q.table column)

def checkColumns (q : Request) (known : List String) (row : Json.Fields) : Accessed Unit :=
  match (row.map (·.1)).find? fun c => !known.contains c with
  | some c => .error (.unknownColumn q.table c)
  | none => .ok ()

/-! ### Reads -/

/-- The rows of the table that the caller may see. -/
def read (q : Request) (db : Database) : Accessed (List Json.Fields) := do
  match ← q.artifact db .readView .read with
  | none => pure []
  | some view => q.select db (Sql.selectAll view.identifier) []

def checkAll (q : Request) (db : Database) (params : Json.Fields) :
    List RenderedCheck → Accessed Unit
  | [] => .ok ()
  | check :: rest => do
    let candidate ← q.param params check.column
    let passed ← q.holds db check.sql [candidate]
    if !passed then throw (.unauthorized q.table check.column check.reason)
    q.checkAll db params rest

/-- The rows that have the caller's values, after checking each of them. -/
def fetch (q : Request) (db : Database) (params : Json.Fields) : Accessed (List Json.Fields) := do
  match ← q.artifact db .readAccessor .read with
  | some a =>
    match a.body with
    | .accessor parameters checks querySql =>
      q.checkAll db params checks
      let cells ← parameters.mapM (q.param params)
      q.select db querySql cells
    | _ => throw (.denied q.table .read)
  | none =>
    match ← q.artifact db .readView .read with
    | some _ => throw (.accessorUnavailable q.table)
    | none => throw (.denied q.table .read)

/-! ### Creates -/

def createGuard (q : Request) (db : Database) :
    Accessed (List String × List RenderedCondition) := do
  match ← q.artifact db .writeGuard .create with
  | some a =>
    match a.body with
    | .createGuard columns conditions => pure (columns, conditions)
    | _ => throw (.denied q.table .create)
  | none => throw (.denied q.table .create)

def insertRow (q : Request) (db : Database) (columns : List String) (row : Json.Fields) :
    Accessed (Database × Database.Effect) := do
  q.checkColumns columns row
  let cells ← cellsOf row
  q.execute db (Sql.insert q.table (row.map (·.1))) cells

/-- Check the conditions on the stored row in order. -/
def judge (q : Request) (db : Database) (id : Int) : List RenderedCondition → Accessed Unit
  | [] => .ok ()
  | c :: rest => do
    let passed ← q.holds db (Sql.storedRowCondition c.sql q.table) [.int id]
    if !passed then throw (.unauthorized q.table c.label c.reason)
    q.judge db id rest

/-! ### Updates and deletes -/

/-- The columns, the key and the filter of a guard; a missing one is like a missing row. -/
def restrictGuard (q : Request) (db : Database) (operation : Operation) :
    Accessed (List String × String × String) := do
  match ← q.artifact db .writeGuard operation with
  | some a =>
    match a.body with
    | .restrictGuard columns key filterSql => pure (columns, key, filterSql)
    | _ => throw (.denied q.table operation)
  | none => throw (.notFound q.table)

/-- The outcome of a restricted write. -/
def finish (q : Request) (db : Database) (effect : Database.Effect) :
    Accessed (Database × Nat) :=
  if effect.changed == 0 then .error (.notFound q.table) else .ok (db, effect.changed)

def update (q : Request) (db : Database) (key : Json) (changes : Json.Fields) :
    Accessed (Database × Nat) := do
  let (columns, keyColumn, filterSql) ← q.restrictGuard db .update
  if changes.isEmpty then throw (.nothingToUpdate q.table)
  q.checkColumns columns changes
  let cells ← cellsOf changes
  let keyCell ← cellOf keyColumn key
  let (db, effect) ← q.execute db
    (Sql.update q.table keyColumn (changes.map (·.1)) filterSql) (cells ++ [keyCell])
  q.finish db effect

def delete (q : Request) (db : Database) (key : Json) : Accessed (Database × Nat) := do
  let (_, keyColumn, filterSql) ← q.restrictGuard db .delete
  let keyCell ← cellOf keyColumn key
  let (db, effect) ← q.execute db (Sql.delete q.table keyColumn filterSql) [keyCell]
  q.finish db effect

end Request

/-! ### Clients -/

structure Client where
  /-- Whether the store has been seen; until then every request finds no rule. -/
  ready : Bool
  /-- The row id of the last row that was inserted, kept or not. -/
  lastRowId : Int := 0
  deriving Inhabited

namespace Client

def connect (db : Database) : Client := ⟨Store.isMigrated db, 0⟩

def refresh (c : Client) (db : Database) : Client :=
  { c with ready := c.ready || Store.isMigrated db }

def request (c : Client) (principal : Principal) (table : String) (busy : Bool) : Request :=
  ⟨principal, table, c.ready, busy⟩

/-- Insert a row and check the conditions on it; the row id is returned. -/
def create (c : Client) (q : Request) (db : Database) (row : Json.Fields) :
    Client × Accessed (Database × Int) :=
  let inserted := do
    let (columns, conditions) ← q.createGuard db
    let (db, effect) ← q.insertRow db columns row
    pure (db, effect, conditions)
  match inserted with
  | .error e => (c, .error e)
  | .ok (db, effect, conditions) =>
    let id := effect.lastRowId.getD c.lastRowId
    ({ c with lastRowId := id }, (q.judge db id conditions).map fun _ => (db, id))

end Client

end RowPolicy
