import RowPolicy.Database.Bind

/-!
# Statements

A statement is prepared, which binds its names, and then run with values for its parameters. One
whose expressions are too deep cannot be prepared. A statement that fails leaves the database as it
was.
-/

namespace RowPolicy

/-! ### Parameters -/

namespace Sql

mutual

/-- The greatest number of a parameter in an expression. -/
def Expr.params : Expr → Nat
  | .param i => i + 1
  | .call _ args => Expr.paramsAll args
  | .cast e _ => Expr.params e
  | .not e => Expr.params e
  | .compare _ l r => max (Expr.params l) (Expr.params r)
  | .same _ l r => max (Expr.params l) (Expr.params r)
  | .inList _ e items => max (Expr.params e) (Expr.paramsAll items)
  | .inQuery _ e q => max (Expr.params e) (Query.params q)
  | .and children => Expr.paramsAll children
  | .or children => Expr.paramsAll children
  | _ => 0

def Expr.paramsAll : List Expr → Nat
  | [] => 0
  | e :: rest => max (Expr.params e) (Expr.paramsAll rest)

def Expr.paramsRows : List (List Expr) → Nat
  | [] => 0
  | row :: rest => max (Expr.paramsAll row) (Expr.paramsRows rest)

def Query.params : Query → Nat
  | .select _ columns source filter =>
    max (Output.paramsAll columns) (max (Source.params source) (Expr.params filter))
  | .values rows => Expr.paramsRows rows

def Output.params : Output → Nat
  | .expr e _ _ => Expr.params e
  | _ => 0

def Output.paramsAll : List Output → Nat
  | [] => 0
  | o :: rest => max (Output.params o) (Output.paramsAll rest)

def Source.params : Source → Nat
  | .query q _ => Query.params q
  | _ => 0

end

def Statement.params : Statement → Nat
  | .query q => q.params
  | .insert _ _ rows => (rows.map Query.params).getD 0
  | .overwrite _ _ rows => (rows.map Query.params).getD 0
  | .update _ changes filter => max (Expr.paramsAll (changes.map (·.2))) filter.params
  | .delete _ filter => filter.params
  | .createView _ _ q => q.params
  | _ => 0

/-! ### Depth -/

/-- The height of an expression as a tree, and how deep the queries in it go. -/
structure Extent where
  height : Nat := 1
  nested : Nat := 0
  deriving Inhabited

namespace Extent

/-- The depth that is reached where a query in an expression is looked at. -/
def depth (x : Extent) : Nat := x.height + x.nested

/-- An expression above others. -/
def above (xs : List Extent) : Extent :=
  ⟨(xs.map height).foldr max 0 + 1, (xs.map nested).foldr max 0⟩

/-- An expression with a negation above it, or without one. -/
def negated (negation : Bool) (x : Extent) : Extent := if negation then above [x] else x

/-- A chain of operands, which is nested to the left. -/
def chain : List Extent → Extent
  | [] => {}
  | x :: rest => rest.foldl (fun left right => above [left, right]) x

/-- A query with its expressions and its source. -/
def query (xs : List Extent) (source : Nat) : Extent :=
  ⟨(xs.map height).foldr max 0, (xs.map depth).foldr max source⟩

end Extent

mutual

/-- A sign and the row of a column are nodes of their own. -/
def Expr.extent : Expr → Extent
  | .int i => ⟨if i < 0 then 2 else 1, 0⟩
  | .real x => ⟨if x.isNegative then 2 else 1, 0⟩
  | .column row _ _ => ⟨if row.isSome then 2 else 1, 0⟩
  | .call _ args => .above (Expr.extents args)
  | .cast e _ => .above [Expr.extent e]
  | .not e => .above [Expr.extent e]
  | .compare _ l r => .above [Expr.extent l, Expr.extent r]
  | .same _ l r => .above [Expr.extent l, Expr.extent r]
  | .inList negated e items => .negated negated (.above (Expr.extent e :: Expr.extents items))
  | .inQuery negated e q => .negated negated (.above [Expr.extent e, Query.extent q])
  | .and children => .chain (Expr.extents children)
  | .or children => .chain (Expr.extents children)
  | _ => {}

def Expr.extents : List Expr → List Extent
  | [] => []
  | e :: rest => Expr.extent e :: Expr.extents rest

def Expr.extentsRows : List (List Expr) → List Extent
  | [] => []
  | row :: rest => Expr.extents row ++ Expr.extentsRows rest

def Query.extent : Query → Extent
  | .select _ columns source filter =>
    .query (Expr.extent filter :: Output.extents columns) (Source.depth source)
  | .values rows => .query (Expr.extentsRows rows) 0

def Output.extents : List Output → List Extent
  | [] => []
  | .expr e _ _ :: rest => Expr.extent e :: Output.extents rest
  | _ :: rest => Output.extents rest

def Source.depth : Source → Nat
  | .query q _ => (Query.extent q).nested
  | _ => 0

end

/-- How deep the expressions of a statement go. The views that it reads count by themselves. -/
def Statement.depth : Statement → Nat
  | .query q => q.extent.nested
  | .insert _ _ rows => (rows.map fun q => q.extent.nested).getD 0
  | .overwrite _ _ rows => (rows.map fun q => q.extent.nested).getD 0
  | .update _ changes filter =>
    ((filter.extent :: Expr.extents (changes.map (·.2))).map Extent.depth).foldr max 0
  | .delete _ filter => filter.extent.depth
  | .createView _ _ q => q.extent.nested
  | _ => 0

/-- The depth that a statement may have. -/
def maxDepth : Nat := 1000

end Sql

/-! ### Preparation -/

/-- A statement with its names bound. A place of none stands for the row id. -/
inductive BoundStatement where
  | query (q : BoundQuery) (names : List String)
  | insert (table : String) (targets : List (Option Nat)) (rows : Option BoundQuery)
  | update (table : String) (changes : List (Option Nat × BoundExpr)) (filter : BoundExpr)
  | delete (table : String) (filter : BoundExpr)
  | createView (v : View)
  | dropView (name : String) (ifPresent : Bool)
  | dropTable (name : String)
  /-- A statement without an effect. -/
  | nothing
  /-- A statement that can be prepared and not run. -/
  | inert
  deriving Inhabited

structure Prepared where
  statement : BoundStatement
  params : Nat
  /-- Whether the statement only reads and yields columns. -/
  isSelection : Bool
  deriving Inhabited

namespace Database

/-- The place that a name of a table's column stands for. -/
def target (t : Table) (name : String) : Bound (Option Nat) :=
  match t.columnIndex? name with
  | some i => .ok (some i)
  | none =>
    if !t.withoutRowId && Binder.isRowIdName name then .ok none else .error .invalid

def writable (db : Database) (name : String) : Bound Table :=
  match db.table? name with
  | some t => .ok t
  | none => .error .invalid

/-- The row that the columns of a write are looked up in. -/
def writeScope (t : Table) (name : String) : Scope := ⟨name, tableHeadings t, !t.withoutRowId⟩

def bindChanges (b : Binder) (t : Table) (scope : Scope) :
    List (String × Sql.Expr) → Bound (List (Option Nat × BoundExpr))
  | [] => .ok []
  | (name, e) :: rest => do
    let place ← target t name
    let (e, _) ← b.expr [scope] e
    let more ← bindChanges b t scope rest
    pure ((place, e) :: more)

/-- Bind the rows of an insertion, which must fit its columns. -/
def bindRows (b : Binder) (width : Nat) (q : Sql.Query) : Bound BoundQuery := do
  let (q, headings) ← b.query [] q
  if headings.length != width then throw .invalid
  pure q

def bindInsert (db : Database) (hasPrincipal : Bool) (table : String)
    (columns : Option (List String)) (rows : Option Sql.Query) : Bound BoundStatement := do
  let t ← db.writable table
  let targets ← match columns with
    | some names => names.mapM (target t)
    | none => pure ((List.range t.columns.length).map some)
  match rows with
  | none => pure (.insert t.name targets none)
  | some q =>
    let q ← bindRows (db.binder hasPrincipal) targets.length q
    pure (.insert t.name targets (some q))

/-- Bind a statement; `sql` is its text. -/
def bindStatement (db : Database) (hasPrincipal : Bool) (sql : String) :
    Sql.Statement → Bound BoundStatement
  | .query q => do
    let (q, headings) ← (db.binder hasPrincipal).query [] q
    pure (.query q (headings.map (·.1)))
  | .insert table columns rows => db.bindInsert hasPrincipal table columns rows
  | .overwrite table columns rows => do
    let _ ← db.bindInsert hasPrincipal table columns rows
    pure .inert
  | .update table changes filter => do
    let t ← db.writable table
    let b := db.binder hasPrincipal
    let scope := writeScope t table
    let changes ← bindChanges b t scope changes
    let (filter, _) ← b.expr [scope] filter
    pure (.update t.name changes filter)
  | .delete table filter => do
    let t ← db.writable table
    let (filter, _) ← (db.binder hasPrincipal).expr [writeScope t table] filter
    pure (.delete t.name filter)
  | .createView name ifAbsent q =>
    if isReserved name || 0 < q.params then .error .invalid
    else if db.hasObject name then
      if ifAbsent then .ok .nothing else .error .invalid
    else .ok (.createView ⟨name, sql, q⟩)
  | .createTable name ifAbsent =>
    if isReserved name || (db.hasObject name && !ifAbsent) then .error .invalid else .ok .inert
  | .dropView name ifPresent => do
    let _ ← db.dropView name ifPresent
    pure (.dropView name ifPresent)
  | .dropTable name ifPresent =>
    if (db.table? name).isSome then .ok (.dropTable name)
    else if ifPresent && (db.view? name).isNone then .ok .nothing
    else .error .invalid
  | .createIndex table => do
    let _ ← db.writable table
    pure .inert
  | .control => .ok .inert

def prepareStatement (db : Database) (hasPrincipal : Bool) (sql : String) (s : Sql.Statement) :
    Bound Prepared :=
  if s.depth ≤ Sql.maxDepth then do
    let bound ← db.bindStatement hasPrincipal sql s
    pure ⟨bound, s.params, match s with
      | .query _ => true
      | _ => false⟩
  else .error .invalid

def prepare (db : Database) (hasPrincipal : Bool) (sql : String) : Bound Prepared :=
  match Sql.parse sql with
  | .one s _ => db.prepareStatement hasPrincipal sql s
  | .none => .ok ⟨.nothing, 0, false⟩
  | .error => .error .invalid

/-! ### Running -/

def insertRows (t : Table) (targets : List (Option Nat)) (count : Nat) (last : Option Int) :
    List (List Cell) → Bound (Table × Nat × Option Int)
  | [] => .ok (t, count, last)
  | cells :: rest => do
    let pairs := targets.zip cells
    let given := pairs.filterMap fun (place, v) => place.map fun i => (i, v)
    let id := (pairs.find? fun (place, _) => place.isNone).map (·.2)
    let (t', rowId) ← t.insert given id
    insertRows t' targets (count + 1) (if t.withoutRowId then last else some rowId) rest

/-- The rows of a table that meet a condition. -/
def matching (db : Database) (env : Env) (t : Table) (filter : BoundExpr) : List Row :=
  t.rows.filter fun r => (filter.eval db env [r.frame]).truth == some true

def updateRows (db : Database) (env : Env) (changes : List (Option Nat × BoundExpr)) (t : Table) :
    List Row → Bound Table
  | [] => .ok t
  | r :: rest => do
    let values := changes.map fun (place, e) => (place, e.eval db env [r.frame])
    let given := values.filterMap fun (place, v) => place.map fun i => (i, v)
    let id := (values.find? fun (place, _) => place.isNone).map (·.2)
    let t ← t.update r given id
    updateRows db env changes t rest

/-- What a statement did: the number of rows written and the row id of the last new one. -/
structure Effect where
  changed : Nat := 0
  lastRowId : Option Int := none
  deriving Inhabited

def run (db : Database) (env : Env) : BoundStatement → Bound (Database × Effect)
  | .query q _ =>
    if (q.rows db env []).isEmpty then .ok (db, {}) else .error .returnedRows
  | .insert table targets rows => do
    let t ← db.writable table
    let rows := match rows with
      | some q => q.rows db env []
      | none => [[]]
    let (t, changed, last) ← insertRows t targets 0 none rows
    pure (db.setTable t, ⟨changed, last⟩)
  | .update table changes filter => do
    let t ← db.writable table
    let rows := db.matching env t filter
    let t ← updateRows db env changes t rows
    pure (db.setTable t, ⟨rows.length, none⟩)
  | .delete table filter => do
    let t ← db.writable table
    let rows := db.matching env t filter
    let kept := t.rows.filter fun r => !rows.contains r
    pure (db.setTable { t with rows := kept }, ⟨rows.length, none⟩)
  | .createView v => do
    let db ← db.createView v
    pure (db, {})
  | .dropView name ifPresent => do
    let db ← db.dropView name ifPresent
    pure (db, {})
  | .dropTable name => do
    let db ← db.dropTable name
    pure (db, {})
  | .nothing => .ok (db, {})
  | .inert => .error .invalid

def checkParams (p : Prepared) (env : Env) : Bound Unit :=
  if p.params == env.params.length then .ok () else .error .wrongParameterCount

def execute (db : Database) (env : Env) (sql : String) : Bound (Database × Effect) := do
  let p ← db.prepare true sql
  checkParams p env
  db.run env p.statement

/-- Prepare and run a query: the names of its columns and its rows. -/
def select (db : Database) (hasPrincipal : Bool) (env : Env) (sql : String) :
    Bound (List String × List (List Cell)) := do
  let p ← db.prepare hasPrincipal sql
  checkParams p env
  match p.statement with
  | .query q names => pure (names, q.rows db env [])
  | _ => pure ([], [])

end Database

end RowPolicy
