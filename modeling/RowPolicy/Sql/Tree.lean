import RowPolicy.Number.Binary64

/-!
# SQL trees

The expressions, queries and statements that are understood: selections from at most one source,
lists of values, writes, views and tables, and transactions. A chain of `AND` or of `OR` is one
node.
-/

namespace RowPolicy.Sql

inductive Comparison where
  | eq
  | ne
  | lt
  | le
  | gt
  | ge
  deriving DecidableEq, Repr, Inhabited

mutual

inductive Expr where
  | null
  | int (i : Int)
  | real (x : Binary64)
  | text (s : String)
  | bytes (bs : List UInt8)
  /-- A parameter, by its place among the values given; a text counts from one. -/
  | param (index : Nat)
  /-- A column, perhaps of a named row; a double-quoted name may turn out to be a text. -/
  | column (row : Option String) (name : String) (doubleQuoted : Bool)
  | call (name : String) (args : List Expr)
  | cast (e : Expr) (type : String)
  | not (e : Expr)
  | compare (op : Comparison) (l r : Expr)
  /-- Equality that treats null as a value. -/
  | same (negated : Bool) (l r : Expr)
  | inList (negated : Bool) (e : Expr) (items : List Expr)
  | inQuery (negated : Bool) (e : Expr) (q : Query)
  | and (children : List Expr)
  | or (children : List Expr)

inductive Query where
  | select (distinct : Bool) (columns : List Output) (source : Source) (filter : Expr)
  | values (rows : List (List Expr))

inductive Output where
  | all
  | allOf (row : String)
  /-- An expression with its new name, if it has one, and its text. -/
  | expr (e : Expr) (name : Option String) (text : String)

inductive Source where
  | unit
  | named (name : String) (label : Option String)
  | query (q : Query) (label : Option String)

end

instance : Inhabited Expr := ⟨.null⟩

instance : Inhabited Query := ⟨.values []⟩

inductive Statement where
  | query (q : Query)
  | insert (table : String) (columns : Option (List String)) (rows : Option Query)
  /-- An insertion that says what to do about rows that clash. -/
  | overwrite (table : String) (columns : Option (List String)) (rows : Option Query)
  | update (table : String) (changes : List (String × Expr)) (filter : Expr)
  | delete (table : String) (filter : Expr)
  | createView (name : String) (ifAbsent : Bool) (q : Query)
  | createTable (name : String) (ifAbsent : Bool)
  | dropView (name : String) (ifPresent : Bool)
  | dropTable (name : String) (ifPresent : Bool)
  | createIndex (table : String)
  /-- A statement about transactions or the database as a whole. -/
  | control
  deriving Inhabited

end RowPolicy.Sql
