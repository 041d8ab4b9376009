import RowPolicy.Number.Binary64

/-!
# TOML tables

A table is built line by line. A table that a header or a dotted key only passes through exists
implicitly until it is declared; a table is declared once, and dotted keys extend only tables that
dotted keys made.
-/

namespace RowPolicy.Toml

mutual

inductive Item where
  | text (s : String)
  | integer (i : Int)
  | real (x : Binary64)
  | truth (b : Bool)
  /-- A date, a time or both. -/
  | moment (s : String)
  | list (items : List Item)
  /-- A table written as a value, which nothing extends. -/
  | inline (t : Table)
  | table (t : Table)
  /-- Tables under one header; the last one is being extended. -/
  | tables (earlier : List Table) (last : Table)

inductive Table where
  | mk (isImplicit isDotted : Bool) (entries : List (String × Item))

end

instance : Inhabited Item := ⟨.truth false⟩

instance : Inhabited Table := ⟨.mk false false []⟩

namespace Table

def empty : Table := .mk false false []

def isImplicit : Table → Bool
  | .mk i _ _ => i

def isDotted : Table → Bool
  | .mk _ d _ => d

def entries : Table → List (String × Item)
  | .mk _ _ es => es

def get? (t : Table) (key : String) : Option Item := t.entries.lookup key

def putEntry (key : String) (item : Item) : List (String × Item) → List (String × Item)
  | [] => [(key, item)]
  | (k, i) :: rest => if k == key then (key, item) :: rest else (k, i) :: putEntry key item rest

def put (t : Table) (key : String) (item : Item) : Table :=
  .mk t.isImplicit t.isDotted (putEntry key item t.entries)

def declared (t : Table) : Table := .mk false t.isDotted t.entries

/-- Change the table at a path, which is made if need be. A dotted key does not pass through
declared tables. -/
def update? (dotted : Bool) (f : Table → Option Table) : List String → Table → Option Table
  | [], t => f t
  | key :: path, t =>
    match t.get? key with
    | none => do
      let child ← update? dotted f path (.mk true dotted [])
      some (t.put key (.table child))
    | some (.table child) =>
      if dotted && !child.isImplicit then none
      else do
        let child ← update? dotted f path child
        some (t.put key (.table child))
    | some (.tables earlier last) => do
      let last ← update? dotted f path last
      some (t.put key (.tables earlier last))
    | some _ => none

/-- Add a value under a dotted key, given the part before its last name. -/
def insert? (path : List String) (key : String) (item : Item) (t : Table) : Option Table :=
  update? true (fun t =>
    if t.isDotted == path.isEmpty then none
    else
      match t.get? key with
      | some _ => none
      | none => some (t.put key item)) path t

def declareTable? (key : String) (t : Table) : Option Table :=
  match t.get? key with
  | none => some (t.put key (.table empty))
  | some (.table child) =>
    if child.isImplicit && !child.isDotted then some (t.put key (.table child.declared)) else none
  | some _ => none

def declareTables? (key : String) (t : Table) : Option Table :=
  match t.get? key with
  | none => some (t.put key (.tables [] empty))
  | some (.tables earlier last) => some (t.put key (.tables (earlier ++ [last]) empty))
  | some _ => none

end Table

end RowPolicy.Toml
