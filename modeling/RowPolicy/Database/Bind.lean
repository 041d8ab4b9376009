import RowPolicy.Database.Bound
import RowPolicy.Sql.Parser

/-!
# Binding of names

Names are looked up without regard to case, in the innermost query first. A table answers to its
name or to the alias given for it; a column that the table does not have may still be its row id. A
double-quoted name that is no column is a text. Views are replaced by their queries; a view that
refers to itself is refused.
-/

namespace RowPolicy

/-- A column of a query's result: its name and affinity. -/
abbrev Heading := String × Affinity

/-- A row that names are looked up in. -/
structure Scope where
  name : String
  columns : List Heading
  hasRowId : Bool

structure Binder where
  /-- The rows, columns and presence of row ids behind a name. -/
  find : String → Except StorageError (BoundSource × List Heading × Bool)
  /-- Whether the principal's function is available. -/
  hasPrincipal : Bool

abbrev Bound := Except StorageError

namespace Binder

/-! ### Columns -/

def isRowIdName (name : String) : Bool := ["rowid", "_rowid_", "oid"].contains (Text.foldCase name)

def columnOf? (s : Scope) (name : String) : Option (Nat × Heading) :=
  match s.columns.findIdx? fun c => Text.sameName c.1 name with
  | some i => (s.columns[i]?).map fun c => (i, c)
  | none =>
    if s.hasRowId && isRowIdName name then some (s.columns.length, "rowid", .integer) else none

/-- Look a column up, from the innermost row outwards. -/
def lookup? (row : Option String) (name : String) : Nat → List Scope →
    Option (BoundExpr × Heading)
  | _, [] => none
  | depth, s :: outer =>
    let fits := match row with
      | some r => Text.sameName s.name r
      | none => true
    match if fits then columnOf? s name else none with
    | some (i, heading) => some (.column depth i, heading)
    | none => lookup? row name (depth + 1) outer

/-- A name that is no column. -/
def looseName (name : String) (doubleQuoted : Bool) : Bound BoundExpr :=
  if doubleQuoted then .ok (.const (.text name))
  else match Text.foldCase name with
    | "true" => .ok (.const (.int 1))
    | "false" => .ok (.const (.int 0))
    | _ => .error .invalid

/-! ### Headings -/

/-- A name without a number behind a colon at its end. -/
def withoutNumber (name : String) : String :=
  let back := name.toList.reverse
  match back.dropWhile Char.isDigit with
  | ':' :: rest => if rest.isEmpty then name else String.ofList rest.reverse
  | _ => name

def freshName (taken : List String) (name : String) : Nat → Nat → String
  | 0, _ => name
  | fuel + 1, n =>
    if taken.any (Text.sameName name) then
      freshName taken (withoutNumber name ++ ":" ++ Number.natText n) fuel (n + 1)
    else name

def distinctNames (taken : List String) : List Heading → List Heading
  | [] => []
  | (name, a) :: rest =>
    let fresh := freshName taken name (taken.length + 1) 1
    (fresh, a) :: distinctNames (fresh :: taken) rest

def valueHeadings (count : Nat) : List Heading :=
  (List.range count).map fun i => ("column" ++ Number.natText (i + 1), .none)

/-- A column of a result, and how it is named if it is not given a name. -/
structure Shown where
  expr : BoundExpr
  heading : Heading

def allColumns (s : Scope) : List Shown :=
  s.columns.zipIdx.map fun (c, i) => ⟨.column 0 i, c⟩

/-- The name of a column without a new name: that of the column it shows, or its text. -/
def shownName (scopes : List Scope) (e : Sql.Expr) (text : String) : String :=
  match e with
  | .column row name _ =>
    match lookup? row name 0 scopes with
    | some (_, heading) => heading.1
    | none => text
  | _ => text

/-! ### Expressions and queries -/

mutual

/-- Bind an expression; its affinity is that of the column it is, if it is one. -/
def expr (b : Binder) (scopes : List Scope) : Sql.Expr → Bound (BoundExpr × Affinity)
  | .null => .ok (.const .null, .none)
  | .int i => .ok (.const (.int i), .none)
  | .real x => .ok (.const (.real x), .none)
  | .text s => .ok (.const (.text s), .none)
  | .bytes bs => .ok (.const (.blob bs), .none)
  | .param i => .ok (.param i, .none)
  | .column row name doubleQuoted =>
    match lookup? row name 0 scopes, row with
    | some (e, heading), _ => .ok (e, heading.2)
    | none, some _ => .error .invalid
    | none, none => (looseName name doubleQuoted).map fun e => (e, .none)
  | .call name args =>
    if b.hasPrincipal && Text.sameName name "tg_principal" && args.isEmpty then
      .ok (.principal, .none)
    else .error .invalid
  | .cast e type => do
    let (e, _) ← expr b scopes e
    if Affinity.ofType type == .text then pure (.castText e, .text) else throw .invalid
  | .not e => do
    let (e, _) ← expr b scopes e
    pure (.not e, .none)
  | .compare op l r => do
    let (l, la) ← expr b scopes l
    let (r, ra) ← expr b scopes r
    pure (.compare op (.ofComparison la ra) l r, .none)
  | .same negated l r => do
    let (l, la) ← expr b scopes l
    let (r, ra) ← expr b scopes r
    pure (.same negated (.ofComparison la ra) l r, .none)
  | .inList negated e items => do
    let (e, a) ← expr b scopes e
    let items ← exprs b scopes items
    pure (.inList negated a e items, .none)
  | .inQuery negated e q => do
    let (e, a) ← expr b scopes e
    let (q, headings) ← query b scopes q
    match headings with
    | [(_, c)] => pure (.inQuery negated (.ofComparison c a) e q, .none)
    | _ => throw .invalid
  | .and children => do
    let children ← exprs b scopes children
    pure (.and children, .none)
  | .or children => do
    let children ← exprs b scopes children
    pure (.or children, .none)

def exprs (b : Binder) (scopes : List Scope) : List Sql.Expr → Bound (List BoundExpr)
  | [] => .ok []
  | e :: rest => do
    let (e, _) ← expr b scopes e
    let es ← exprs b scopes rest
    pure (e :: es)

/-- Bind rows of values, all of them as wide as the first. -/
def valueRows (b : Binder) (scopes : List Scope) (width : Nat) :
    List (List Sql.Expr) → Bound (List (List BoundExpr))
  | [] => .ok []
  | row :: rest => do
    let es ← exprs b scopes row
    if es.length != width then throw .invalid
    let more ← valueRows b scopes width rest
    pure (es :: more)

def output (b : Binder) (scopes : List Scope) : Sql.Output → Bound (List Shown)
  | .all =>
    match scopes with
    | s :: _ => if s.columns.isEmpty then .error .invalid else .ok (allColumns s)
    | [] => .error .invalid
  | .allOf row =>
    match scopes with
    | s :: _ =>
      if Text.sameName s.name row && !s.columns.isEmpty then .ok (allColumns s)
      else .error .invalid
    | [] => .error .invalid
  | .expr e name text => do
    let (bound, a) ← expr b scopes e
    pure [⟨bound, name.getD (shownName scopes e text), a⟩]

def outputs (b : Binder) (scopes : List Scope) : List Sql.Output → Bound (List Shown)
  | [] => .ok []
  | o :: rest => do
    let shown ← output b scopes o
    let more ← outputs b scopes rest
    pure (shown ++ more)

/-- Bind a source and the row that its columns are looked up in. -/
def source (b : Binder) : Sql.Source → Bound (BoundSource × Scope)
  | .unit => .ok (.unit, ⟨"", [], false⟩)
  | .named name label => do
    let (rows, headings, hasRowId) ← b.find name
    pure (rows, ⟨label.getD name, headings, hasRowId⟩)
  | .query q label => do
    let (q, headings) ← query b [] q
    pure (.query q, ⟨label.getD "", distinctNames [] headings, false⟩)

def query (b : Binder) (scopes : List Scope) : Sql.Query → Bound (BoundQuery × List Heading)
  | .select distinct columns from' filter => do
    let (rows, scope) ← source b from'
    let shown ← outputs b (scope :: scopes) columns
    let (filter, _) ← expr b (scope :: scopes) filter
    pure (.select distinct (shown.map Shown.expr) rows filter, shown.map Shown.heading)
  | .values rows => do
    let width := (rows.head?.map List.length).getD 0
    let bound ← valueRows b scopes width rows
    pure (.values bound, valueHeadings width)

end

end Binder

/-! ### Sources -/

namespace Database

def tableHeadings (t : Table) : List Heading := t.columns.map fun c => (c.name, c.affinity)

/-- What stands behind a name, with views expanded to at most the given depth. -/
def sourceAt (db : Database) (hasPrincipal : Bool) :
    Nat → String → Bound (BoundSource × List Heading × Bool)
  | fuel, name =>
    match db.table? name with
    | some t => .ok (.table t.name, tableHeadings t, !t.withoutRowId)
    | none =>
      match fuel, db.view? name with
      | _, none => .error .invalid
      | 0, some _ => .error .invalid
      | fuel + 1, some v => do
        let (q, headings) ← Binder.query ⟨db.sourceAt hasPrincipal fuel, hasPrincipal⟩ [] v.query
        pure (.query q, Binder.distinctNames [] headings, false)

/-- The binder of a database. A chain of distinct views is no longer than their number. -/
def binder (db : Database) (hasPrincipal : Bool) : Binder :=
  ⟨db.sourceAt hasPrincipal db.views.length, hasPrincipal⟩

end Database

end RowPolicy
