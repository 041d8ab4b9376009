import RowPolicy.Number.Decimal
import RowPolicy.Sql.Token
import RowPolicy.Sql.Tree
import RowPolicy.Text.Name

/-!
# SQL parser

Reads the first statement of a token list by recursive descent. `OR` binds loosest, then `AND`,
`NOT`, equality with `IN` and `IS`, and order comparisons; parentheses group. Every call takes
fuel, of which the number of tokens gives enough.
-/

namespace RowPolicy.Sql

/-- A reading step: what was read and the tokens behind it, or nothing. -/
abbrev Parse (α : Type) := List Lexeme → Option (α × List Lexeme)

/-! ### Words -/

/-- Words that cannot be bare names. -/
def reserved : List String :=
  ["ADD", "ALL", "ALTER", "AND", "AS", "AUTOINCREMENT", "BETWEEN", "CASE", "CHECK", "COLLATE",
   "COMMIT", "CONSTRAINT", "CREATE", "DEFAULT", "DEFERRABLE", "DELETE", "DISTINCT", "DROP", "ELSE",
   "ESCAPE", "EXCEPT", "EXISTS", "FOREIGN", "FROM", "GROUP", "HAVING", "IN", "INDEX", "INSERT",
   "INTERSECT", "INTO", "IS", "ISNULL", "JOIN", "LIMIT", "NOT", "NOTHING", "NOTNULL", "NULL", "ON",
   "OR", "ORDER", "PRIMARY", "REFERENCES", "RETURNING", "SELECT", "SET", "TABLE", "THEN", "TO",
   "TRANSACTION", "UNION", "UNIQUE", "UPDATE", "USING", "VALUES", "WHEN", "WHERE"]

/-- Words that join sources: they may be names, but not new names without `AS`. -/
def joining : List String := ["CROSS", "FULL", "INNER", "LEFT", "NATURAL", "OUTER", "RIGHT"]

def upper (s : String) : String := String.ofList (s.toList.map Char.toUpper)

def Lexeme.isWord (l : Lexeme) (keyword : String) : Bool :=
  match l.token with
  | .word s => upper s == keyword
  | _ => false

def Lexeme.isSymbol (l : Lexeme) (s : String) : Bool := l.token == .symbol s

def keyword (k : String) : Parse Unit
  | l :: rest => if l.isWord k then some ((), rest) else none
  | [] => none

def symbol (s : String) : Parse Unit
  | l :: rest => if l.isSymbol s then some ((), rest) else none
  | [] => none

def keywords : List String → Parse Unit
  | [], ls => some ((), ls)
  | k :: ks, ls =>
    match keyword k ls with
    | some (_, rest) => keywords ks rest
    | none => none

/-- Pass keywords if they are there. -/
def passed (ks : List String) (ls : List Lexeme) : Bool × List Lexeme :=
  match keywords ks ls with
  | some (_, rest) => (true, rest)
  | none => (false, ls)

def nameOf : Parse String
  | ⟨.word s, _, _⟩ :: rest => if reserved.contains (upper s) then none else some (s, rest)
  | ⟨.name s _, _, _⟩ :: rest => some (s, rest)
  | ⟨.text s, _, _⟩ :: rest => some (s, rest)
  | _ => none

/-- A new name without `AS`. -/
def plainAlias : Parse String
  | ⟨.word s, a, b⟩ :: rest =>
    if joining.contains (upper s) then none else nameOf (⟨.word s, a, b⟩ :: rest)
  | ls => nameOf ls

/-- A new name, if there is one. -/
def label? (ls : List Lexeme) : Option (Option String × List Lexeme) :=
  match keyword "AS" ls with
  | some (_, rest) => (nameOf rest).map fun (s, more) => (some s, more)
  | none =>
    match plainAlias ls with
    | some (s, rest) => some (some s, rest)
    | none => some (none, ls)

def sliceText (text : List Char) (start stop : Nat) : String :=
  String.ofList ((text.drop start).take (stop - start))

/-- Where the last token before `rest` ended. -/
def stopOf (before rest : List Lexeme) : Nat :=
  match (before.take (before.length - rest.length)).getLast? with
  | some l => l.stop
  | none => 0

def intLiteral (digits : String) (negative : Bool) : Expr :=
  let n : Int := Number.ofDigits digits.toList
  let i := if negative then -n else n
  if Number.isInt64 i then .int i
  else .real (Binary64.ofDecimal negative (Number.ofDigits digits.toList) 0)

def realLiteralOf (text : String) (negative : Bool) : Expr :=
  .real ((Binary64.readMagnitude negative text.toList).getD (Binary64.zero negative))

def equalityOf : Token → Option Comparison
  | .symbol "=" => some .eq
  | .symbol "==" => some .eq
  | .symbol "<>" => some .ne
  | .symbol "!=" => some .ne
  | _ => none

def orderOf : Token → Option Comparison
  | .symbol "<" => some .lt
  | .symbol "<=" => some .le
  | .symbol ">" => some .gt
  | .symbol ">=" => some .ge
  | _ => none

/-- A chain of several operands is one node, a single operand is itself. -/
def chain (wrap : List Expr → Expr) : List Expr → Expr
  | [e] => e
  | es => wrap es

def typeWords : List Lexeme → List String × List Lexeme
  | ⟨.word s, a, b⟩ :: rest =>
    if reserved.contains (upper s) then ([], ⟨.word s, a, b⟩ :: rest)
    else
      let (more, rest) := typeWords rest
      (s :: more, rest)
  | ⟨.name s _, _, _⟩ :: rest =>
    let (more, rest) := typeWords rest
    (s :: more, rest)
  | ls => ([], ls)

/-- Pass everything up to the parenthesis that closes, at the given depth. -/
def skipParens : Nat → List Lexeme → Option (List Lexeme)
  | _, [] => none
  | depth, l :: rest =>
    if l.token == .illegal || l.isSymbol ";" then none
    else if l.isSymbol "(" then skipParens (depth + 1) rest
    else if l.isSymbol ")" then
      match depth with
      | 0 => some rest
      | d + 1 => skipParens d rest
    else skipParens depth rest

/-! ### Expressions and queries -/

mutual

def expr (text : List Char) : Nat → Parse Expr
  | 0, _ => none
  | fuel + 1, ls => do
    let (first, rest) ← conjunction text fuel ls
    let (more, rest) ← disjuncts text fuel rest
    some (chain .or (first :: more), rest)

def disjuncts (text : List Char) : Nat → Parse (List Expr)
  | 0, _ => none
  | fuel + 1, ls =>
    match keyword "OR" ls with
    | none => some ([], ls)
    | some (_, rest) => do
      let (e, rest) ← conjunction text fuel rest
      let (es, rest) ← disjuncts text fuel rest
      some (e :: es, rest)

def conjunction (text : List Char) : Nat → Parse Expr
  | 0, _ => none
  | fuel + 1, ls => do
    let (first, rest) ← negation text fuel ls
    let (more, rest) ← conjuncts text fuel rest
    some (chain .and (first :: more), rest)

def conjuncts (text : List Char) : Nat → Parse (List Expr)
  | 0, _ => none
  | fuel + 1, ls =>
    match keyword "AND" ls with
    | none => some ([], ls)
    | some (_, rest) => do
      let (e, rest) ← negation text fuel rest
      let (es, rest) ← conjuncts text fuel rest
      some (e :: es, rest)

def negation (text : List Char) : Nat → Parse Expr
  | 0, _ => none
  | fuel + 1, ls =>
    match keyword "NOT" ls with
    | some (_, rest) => do
      let (e, rest) ← negation text fuel rest
      some (.not e, rest)
    | none => do
      let (e, rest) ← ordered text fuel ls
      equalities text fuel e rest

/-- What may follow an operand at the level of equality. -/
def equalities (text : List Char) : Nat → Expr → Parse Expr
  | 0, _, _ => none
  | fuel + 1, left, ls =>
    match ls with
    | [] => some (left, [])
    | l :: rest =>
      match equalityOf l.token with
      | some op => do
        let (right, rest) ← ordered text fuel rest
        equalities text fuel (.compare op left right) rest
      | none =>
        if l.isWord "IS" then do
          let (negated, rest) := passed ["NOT"] rest
          let (right, rest) ← ordered text fuel rest
          equalities text fuel (.same negated left right) rest
        else if l.isWord "ISNULL" then equalities text fuel (.same false left .null) rest
        else if l.isWord "NOTNULL" then equalities text fuel (.same true left .null) rest
        else if l.isWord "IN" then do
          let (e, rest) ← membership text fuel false left rest
          equalities text fuel e rest
        else if l.isWord "NOT" then
          match keyword "IN" rest, keyword "NULL" rest with
          | some (_, rest), _ => do
            let (e, rest) ← membership text fuel true left rest
            equalities text fuel e rest
          | none, some (_, rest) => equalities text fuel (.same true left .null) rest
          | none, none => none
        else some (left, ls)

/-- The right side of `IN`. -/
def membership (text : List Char) : Nat → Bool → Expr → Parse Expr
  | 0, _, _, _ => none
  | fuel + 1, negated, left, ls => do
    let (_, rest) ← symbol "(" ls
    match symbol ")" rest with
    | some (_, rest) => some (.inList negated left [], rest)
    | none =>
      match query text fuel rest with
      | some (q, rest) => do
        let (_, rest) ← symbol ")" rest
        some (.inQuery negated left q, rest)
      | none => do
        let (items, rest) ← exprs text fuel rest
        let (_, rest) ← symbol ")" rest
        some (.inList negated left items, rest)

def exprs (text : List Char) : Nat → Parse (List Expr)
  | 0, _ => none
  | fuel + 1, ls => do
    let (e, rest) ← expr text fuel ls
    match symbol "," rest with
    | none => some ([e], rest)
    | some (_, rest) => do
      let (es, rest) ← exprs text fuel rest
      some (e :: es, rest)

/-- An operand at the level of order comparisons. -/
def ordered (text : List Char) : Nat → Parse Expr
  | 0, _ => none
  | fuel + 1, ls => do
    let (e, rest) ← operand text fuel ls
    orderings text fuel e rest

/-- What may follow an operand at the level of order comparisons. -/
def orderings (text : List Char) : Nat → Expr → Parse Expr
  | 0, _, _ => none
  | fuel + 1, left, ls =>
    match ls with
    | [] => some (left, [])
    | l :: rest =>
      match orderOf l.token with
      | none => some (left, ls)
      | some op => do
        let (right, rest) ← operand text fuel rest
        orderings text fuel (.compare op left right) rest

/-- A literal, a parameter, a column, a call, a cast or an expression in parentheses. -/
def operand (text : List Char) : Nat → Parse Expr
  | 0, _ => none
  | _, [] => none
  | fuel + 1, l :: rest =>
    match l.token with
    | .int digits => some (intLiteral digits false, rest)
    | .real s => some (realLiteralOf s false, rest)
    | .text s => some (.text s, rest)
    | .bytes bs => some (.bytes bs, rest)
    | .param (some (i + 1)) => some (.param i, rest)
    | .name s doubleQuoted => columnOrCall text fuel s doubleQuoted false rest
    | .word s =>
      if upper s == "NULL" then some (.null, rest)
      else if upper s == "CAST" && (symbol "(" rest).isSome then do
        let (_, rest) ← symbol "(" rest
        let (e, rest) ← expr text fuel rest
        let (_, rest) ← keyword "AS" rest
        let (words, rest) := typeWords rest
        let (_, rest) ← symbol ")" rest
        some (.cast e (String.intercalate " " words), rest)
      else if reserved.contains (upper s) then none
      else columnOrCall text fuel s false true rest
    | .symbol "(" => do
      let (e, rest) ← expr text fuel rest
      let (_, rest) ← symbol ")" rest
      some (e, rest)
    | .symbol "-" =>
      match rest with
      | ⟨.int digits, _, _⟩ :: rest => some (intLiteral digits true, rest)
      | ⟨.real s, _, _⟩ :: rest => some (realLiteralOf s true, rest)
      | _ => none
    | .symbol "+" =>
      match rest with
      | ⟨.int digits, _, _⟩ :: rest => some (intLiteral digits false, rest)
      | ⟨.real s, _, _⟩ :: rest => some (realLiteralOf s false, rest)
      | _ => none
    | _ => none

/-- A column, a column of a row, or a call, after its first name. -/
def columnOrCall (text : List Char) : Nat → String → Bool → Bool → Parse Expr
  | 0, _, _, _, _ => none
  | fuel + 1, first, doubleQuoted, callable, ls =>
    match symbol "." ls with
    | some (_, rest) => do
      let (second, rest) ← nameOf rest
      some (.column (some first) second false, rest)
    | none =>
      if callable then
        match symbol "(" ls with
        | none => some (.column none first doubleQuoted, ls)
        | some (_, rest) =>
          match symbol ")" rest with
          | some (_, rest) => some (.call first [], rest)
          | none => do
            let (args, rest) ← exprs text fuel rest
            let (_, rest) ← symbol ")" rest
            some (.call first args, rest)
      else some (.column none first doubleQuoted, ls)

def query (text : List Char) : Nat → Parse Query
  | 0, _ => none
  | fuel + 1, ls =>
    match keyword "VALUES" ls with
    | some (_, rest) => do
      let (rows, rest) ← valueRows text fuel rest
      some (.values rows, rest)
    | none => do
      let (_, rest) ← keyword "SELECT" ls
      let (distinct, rest) := passed ["DISTINCT"] rest
      let (_, rest) := if distinct then (false, rest) else passed ["ALL"] rest
      let (columns, rest) ← outputs text fuel rest
      let (source, rest) ← match keyword "FROM" rest with
        | none => some (Source.unit, rest)
        | some (_, rest) => source text fuel rest
      let (filter, rest) ← match keyword "WHERE" rest with
        | none => some (Expr.int 1, rest)
        | some (_, rest) => expr text fuel rest
      some (.select distinct columns source filter, rest)

def valueRows (text : List Char) : Nat → Parse (List (List Expr))
  | 0, _ => none
  | fuel + 1, ls => do
    let (_, rest) ← symbol "(" ls
    let (row, rest) ← exprs text fuel rest
    let (_, rest) ← symbol ")" rest
    match symbol "," rest with
    | none => some ([row], rest)
    | some (_, rest) => do
      let (rows, rest) ← valueRows text fuel rest
      some (row :: rows, rest)

def outputs (text : List Char) : Nat → Parse (List Output)
  | 0, _ => none
  | fuel + 1, ls => do
    let (column, rest) ← output text fuel ls
    match symbol "," rest with
    | none => some ([column], rest)
    | some (_, rest) => do
      let (columns, rest) ← outputs text fuel rest
      some (column :: columns, rest)

def output (text : List Char) : Nat → Parse Output
  | 0, _ => none
  | fuel + 1, ls =>
    match symbol "*" ls with
    | some (_, rest) => some (.all, rest)
    | none =>
      match ls.drop 1 with
      | dot :: star :: rest =>
        if dot.isSymbol "." && star.isSymbol "*" then
          (nameOf ls).map fun (row, _) => (.allOf row, rest)
        else named text fuel ls
      | _ => named text fuel ls

def named (text : List Char) : Nat → Parse Output
  | 0, _ => none
  | fuel + 1, ls => do
    let (e, rest) ← expr text fuel ls
    let (name, more) ← label? rest
    let start := (ls.head?.map Lexeme.start).getD 0
    some (.expr e name (sliceText text start (stopOf ls rest)), more)

def source (text : List Char) : Nat → Parse Source
  | 0, _ => none
  | fuel + 1, ls =>
    match symbol "(" ls with
    | some (_, rest) => do
      let (q, rest) ← query text fuel rest
      let (_, rest) ← symbol ")" rest
      let (name, rest) ← label? rest
      some (.query q name, rest)
    | none => do
      let (table, rest) ← nameOf ls
      let (name, rest) ← label? rest
      some (.named table name, rest)

end

/-! ### Statements -/

def names : Nat → Parse (List String)
  | 0, _ => none
  | fuel + 1, ls => do
    let (s, rest) ← nameOf ls
    match symbol "," rest with
    | none => some ([s], rest)
    | some (_, rest) => do
      let (more, rest) ← names fuel rest
      some (s :: more, rest)

def changes (text : List Char) : Nat → Parse (List (String × Expr))
  | 0, _ => none
  | fuel + 1, ls => do
    let (column, rest) ← nameOf ls
    let (_, rest) ← symbol "=" rest
    let (e, rest) ← expr text fuel rest
    match symbol "," rest with
    | none => some ([(column, e)], rest)
    | some (_, rest) => do
      let (more, rest) ← changes text fuel rest
      some ((column, e) :: more, rest)

def filter? (text : List Char) (fuel : Nat) : Parse Expr := fun ls =>
  match keyword "WHERE" ls with
  | none => some (.int 1, ls)
  | some (_, rest) => expr text fuel rest

/-- The columns of an insertion, if they are listed. -/
def insertColumns (fuel : Nat) : Parse (Option (List String)) := fun ls =>
  match symbol "(" ls with
  | none => some (none, ls)
  | some (_, rest) => do
    let (cs, rest) ← names fuel rest
    let (_, rest) ← symbol ")" rest
    some (some cs, rest)

/-- The start of an insertion, and whether it says what to do about rows that clash. -/
def insertionStart : Parse Bool := fun ls =>
  match keywords ["INSERT", "INTO"] ls with
  | some (_, rest) => some (false, rest)
  | none =>
    (["ROLLBACK", "ABORT", "FAIL", "IGNORE", "REPLACE"].findSome? fun word =>
        keywords ["INSERT", "OR", word, "INTO"] ls)
      <|> keywords ["REPLACE", "INTO"] ls
      |>.map fun (_, rest) => (true, rest)

def insertion (text : List Char) (fuel : Nat) : Parse Statement := fun ls => do
  let (overwrites, rest) ← insertionStart ls
  let (table, rest) ← nameOf rest
  let (columns, rest) ← insertColumns fuel rest
  let wrap (q : Option Query) : Statement :=
    if overwrites then .overwrite table columns q else .insert table columns q
  match keywords ["DEFAULT", "VALUES"] rest with
  | some (_, rest) => some (wrap none, rest)
  | none => do
    let (q, rest) ← query text fuel rest
    some (wrap (some q), rest)

def updating (text : List Char) (fuel : Nat) : Parse Statement := fun ls => do
  let (_, rest) ← keyword "UPDATE" ls
  let (table, rest) ← nameOf rest
  let (_, rest) ← keyword "SET" rest
  let (cs, rest) ← changes text fuel rest
  let (filter, rest) ← filter? text fuel rest
  some (.update table cs filter, rest)

def deletion (text : List Char) (fuel : Nat) : Parse Statement := fun ls => do
  let (_, rest) ← keywords ["DELETE", "FROM"] ls
  let (table, rest) ← nameOf rest
  let (filter, rest) ← filter? text fuel rest
  some (.delete table filter, rest)

def viewCreation (text : List Char) (fuel : Nat) : Parse Statement := fun ls => do
  let (_, rest) ← keywords ["CREATE", "VIEW"] ls
  let (ifAbsent, rest) := passed ["IF", "NOT", "EXISTS"] rest
  let (name, rest) ← nameOf rest
  let (_, rest) ← keyword "AS" rest
  let (q, rest) ← query text fuel rest
  some (.createView name ifAbsent q, rest)

/-- The creation of a table; what its columns are is not looked at. -/
def tableCreation : Parse Statement := fun ls => do
  let (_, rest) ← keywords ["CREATE", "TABLE"] ls
  let (ifAbsent, rest) := passed ["IF", "NOT", "EXISTS"] rest
  let (name, rest) ← nameOf rest
  let (_, rest) ← symbol "(" rest
  let rest ← skipParens 0 rest
  some (.createTable name ifAbsent, rest)

def removal (kind : String) (wrap : String → Bool → Statement) : Parse Statement := fun ls => do
  let (_, rest) ← keywords ["DROP", kind] ls
  let (ifPresent, rest) := passed ["IF", "EXISTS"] rest
  let (name, rest) ← nameOf rest
  some (wrap name ifPresent, rest)

/-- The creation of an index; what its columns are is not looked at. -/
def indexCreation : Parse Statement := fun ls => do
  let (_, rest) ← keywords ["CREATE", "INDEX"] ls <|> keywords ["CREATE", "UNIQUE", "INDEX"] ls
  let (_, rest) := passed ["IF", "NOT", "EXISTS"] rest
  let (_, rest) ← nameOf rest
  let (_, rest) ← keyword "ON" rest
  let (table, rest) ← nameOf rest
  let (_, rest) ← symbol "(" rest
  let rest ← skipParens 0 rest
  some (.createIndex table, rest)

def transaction : Parse Statement := fun ls => do
  let (_, rest) ← keyword "BEGIN" ls <|> keyword "COMMIT" ls <|> keyword "ROLLBACK" ls
    <|> keyword "END" ls
  let (_, rest) := passed ["DEFERRED"] rest
  let (_, rest) := passed ["IMMEDIATE"] rest
  let (_, rest) := passed ["EXCLUSIVE"] rest
  let (_, rest) := passed ["TRANSACTION"] rest
  some (.control, rest)

def savepoint : Parse Statement := fun ls => do
  let (_, rest) ← keyword "SAVEPOINT" ls <|> keywords ["RELEASE", "SAVEPOINT"] ls
    <|> keyword "RELEASE" ls
  let (_, rest) ← nameOf rest
  some (.control, rest)

def upkeep : Parse Statement := fun ls => do
  let (_, rest) ← keyword "ANALYZE" ls <|> keyword "VACUUM" ls <|> keyword "REINDEX" ls
  some (.control, rest)

def statement (text : List Char) (fuel : Nat) : Parse Statement := fun ls =>
  ((query text fuel ls).map fun (q, rest) => (.query q, rest))
    <|> insertion text fuel ls <|> updating text fuel ls <|> deletion text fuel ls
    <|> viewCreation text fuel ls <|> tableCreation ls <|> indexCreation ls
    <|> removal "VIEW" .dropView ls <|> removal "TABLE" .dropTable ls <|> transaction ls
    <|> savepoint ls <|> upkeep ls

/-- The first statement of a text, or nothing if there is none, and the tokens behind it. -/
inductive Parsed where
  | none
  | one (s : Statement) (rest : List Lexeme)
  | error
  deriving Inhabited

def parseFirst (text : List Char) (ls : List Lexeme) : Parsed :=
  let ls := ls.dropWhile (·.isSymbol ";")
  match ls with
  | [] => .none
  | _ =>
    match statement text (16 * (ls.length + 1)) ls with
    | none => .error
    | some (s, []) => .one s []
    | some (s, l :: rest) => if l.isSymbol ";" then .one s rest else .error

def parse (s : String) : Parsed := parseFirst s.toList (lex s)

end RowPolicy.Sql
