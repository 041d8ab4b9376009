import RowPolicy.Database.Table

/-!
# Bound queries

A query whose names are bound: a column is a place in the row of an enclosing query, a view is
replaced by its query, and every comparison knows the affinity it uses. Evaluating a bound query
cannot fail.
-/

namespace RowPolicy

mutual

inductive BoundExpr where
  | const (c : Cell)
  | param (index : Nat)
  | principal
  /-- A place in the row of the query that encloses this one `depth` times. -/
  | column (depth index : Nat)
  | castText (e : BoundExpr)
  | not (e : BoundExpr)
  | compare (op : Sql.Comparison) (a : Affinity) (l r : BoundExpr)
  | same (negated : Bool) (a : Affinity) (l r : BoundExpr)
  | inList (negated : Bool) (a : Affinity) (e : BoundExpr) (items : List BoundExpr)
  | inQuery (negated : Bool) (a : Affinity) (e : BoundExpr) (q : BoundQuery)
  | and (children : List BoundExpr)
  | or (children : List BoundExpr)

inductive BoundQuery where
  | select (distinct : Bool) (outputs : List BoundExpr) (source : BoundSource) (filter : BoundExpr)
  | values (rows : List (List BoundExpr))

inductive BoundSource where
  | unit
  | table (name : String)
  | query (q : BoundQuery)

end

instance : Inhabited BoundExpr := ⟨.const .null⟩

instance : Inhabited BoundQuery := ⟨.values []⟩

/-! ### Truth -/

/-- A truth value of three-valued logic; `none` is unknown. -/
abbrev Truth := Option Bool

namespace Truth

def not (t : Truth) : Truth := t.map (!·)

/-- Conjunction: false wins, then unknown. -/
def and (s t : Truth) : Truth :=
  match s, t with
  | some false, _ => some false
  | _, some false => some false
  | some true, some true => some true
  | _, _ => none

/-- Disjunction: true wins, then unknown. -/
def or (s t : Truth) : Truth :=
  match s, t with
  | some true, _ => some true
  | _, some true => some true
  | some false, some false => some false
  | _, _ => none

def toCell : Truth → Cell
  | none => .null
  | some b => .int (if b then 1 else 0)

end Truth

namespace Cell

/-- Whether a text starts with a number other than zero. -/
def isTrueText (s : String) : Bool :=
  let cs := (Binary64.splitSign (s.toList.dropWhile isNumberBlank)).2
  let whole := cs.takeWhile Char.isDigit
  let fraction := match cs.dropWhile Char.isDigit with
    | '.' :: more => more.takeWhile Char.isDigit
    | _ => []
  (whole ++ fraction).any (· != '0')

def truth : Cell → Truth
  | .null => none
  | .int i => some (i != 0)
  | .real x => some (!x.isZero)
  | .text s => some (isTrueText s)
  | .blob bytes => some (isTrueText (Text.decodeLossy bytes))

/-- Whether a comparison holds for an order of its sides. -/
def holds (op : Sql.Comparison) (o : Ordering) : Bool :=
  match op with
  | .eq => o == .eq
  | .ne => o != .eq
  | .lt => o == .lt
  | .le => o != .gt
  | .gt => o == .gt
  | .ge => o != .lt

/-- Compare two values under an affinity; unknown if one of them is null. -/
def compareWith (op : Sql.Comparison) (a : Affinity) (x y : Cell) : Truth :=
  if x.isNull || y.isNull then none
  else
    let (x, y) := meet a x y
    some (holds op (order x y))

/-- Whether two values are the same under an affinity, null being a value. -/
def sameWith (a : Affinity) (x y : Cell) : Bool :=
  let (x, y) := meet a x y
  same x y

/-- Whether a value is among others under an affinity: unknown if it is null, or if it is not found
and one of the others is null. -/
def among (a : Affinity) (x : Cell) (ys : List Cell) : Truth :=
  if ys.isEmpty then some false
  else if x.isNull then none
  else if ys.any fun y => !y.isNull && same (convert a x) (convert a y) then some true
  else if ys.any isNull then none
  else some false

end Cell

/-! ### Evaluation -/

structure Env where
  params : List Cell := []
  principal : Option String := none
  deriving Inhabited

/-- The rows of the enclosing queries, innermost first. -/
abbrev Frames := List (List Cell)

def distinctRows (rows : List (List Cell)) : List (List Cell) :=
  rows.foldl (fun kept row =>
    if kept.any fun r => r.length == row.length && (r.zip row).all fun (x, y) => x.same y then kept
    else kept ++ [row]) []

def Row.frame (r : Row) : List Cell := r.cells ++ [.int r.id]

def Database.tableRows (db : Database) (name : String) : List (List Cell) :=
  match db.table? name with
  | some t => t.rows.map Row.frame
  | none => []

mutual

def BoundExpr.eval (db : Database) (env : Env) (frames : Frames) : BoundExpr → Cell
  | .const c => c
  | .param i => env.params.getD i .null
  | .principal =>
    match env.principal with
    | some id => .text id
    | none => .null
  | .column depth index => (frames.getD depth []).getD index .null
  | .castText e => (BoundExpr.eval db env frames e).castText
  | .not e => (BoundExpr.eval db env frames e).truth.not.toCell
  | .compare op a l r =>
    (Cell.compareWith op a (BoundExpr.eval db env frames l)
      (BoundExpr.eval db env frames r)).toCell
  | .same negated a l r =>
    Truth.toCell (some
      (Cell.sameWith a (BoundExpr.eval db env frames l) (BoundExpr.eval db env frames r)
        != negated))
  | .inList negated a e items =>
    let found := Cell.among a (BoundExpr.eval db env frames e)
      (BoundExpr.evalAll db env frames items)
    (if negated then found.not else found).toCell
  | .inQuery negated a e q =>
    let found := Cell.among a (BoundExpr.eval db env frames e)
      ((BoundQuery.rows db env frames q).map fun row => row.headD .null)
    (if negated then found.not else found).toCell
  | .and children => (BoundExpr.allTrue db env frames children).toCell
  | .or children => (BoundExpr.anyTrue db env frames children).toCell

def BoundExpr.evalAll (db : Database) (env : Env) (frames : Frames) : List BoundExpr → List Cell
  | [] => []
  | e :: rest => BoundExpr.eval db env frames e :: BoundExpr.evalAll db env frames rest

def BoundExpr.allTrue (db : Database) (env : Env) (frames : Frames) : List BoundExpr → Truth
  | [] => some true
  | e :: rest =>
    (BoundExpr.eval db env frames e).truth.and (BoundExpr.allTrue db env frames rest)

def BoundExpr.anyTrue (db : Database) (env : Env) (frames : Frames) : List BoundExpr → Truth
  | [] => some false
  | e :: rest =>
    (BoundExpr.eval db env frames e).truth.or (BoundExpr.anyTrue db env frames rest)

def BoundExpr.evalRows (db : Database) (env : Env) (frames : Frames) :
    List (List BoundExpr) → List (List Cell)
  | [] => []
  | es :: rest => BoundExpr.evalAll db env frames es :: BoundExpr.evalRows db env frames rest

def BoundQuery.rows (db : Database) (env : Env) (frames : Frames) : BoundQuery → List (List Cell)
  | .select distinct outputs source filter =>
    let kept := (BoundSource.rows db env source).filter fun row =>
      (BoundExpr.eval db env (row :: frames) filter).truth == some true
    let shown := kept.map fun row => BoundExpr.evalAll db env (row :: frames) outputs
    if distinct then distinctRows shown else shown
  | .values rows => BoundExpr.evalRows db env frames rows

def BoundSource.rows (db : Database) (env : Env) : BoundSource → List (List Cell)
  | .unit => [[]]
  | .table name => db.tableRows name
  | .query q => BoundQuery.rows db env [] q

end

end RowPolicy
