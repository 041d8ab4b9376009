import RowPolicy.Json.Decode

/-!
# Operations and rule keys

A rule gates one operation on one table. Operations are ordered with reads first, keys by table
and then operation.
-/

namespace RowPolicy

inductive Operation where
  | read
  | create
  | update
  | delete
  deriving DecidableEq, Repr, Inhabited

namespace Operation

def all : List Operation := [.read, .create, .update, .delete]

def text : Operation → String
  | .read => "read"
  | .create => "create"
  | .update => "update"
  | .delete => "delete"

def isWrite : Operation → Bool
  | .read => false
  | _ => true

def rank : Operation → Nat
  | .read => 0
  | .create => 1
  | .update => 2
  | .delete => 3

/-- Read a name; `select` and `insert` stand for read and create. -/
def ofText? : String → Option Operation
  | "read" => some .read
  | "select" => some .read
  | "create" => some .create
  | "insert" => some .create
  | "update" => some .update
  | "delete" => some .delete
  | _ => none

/-- Decode a name, without other spellings. -/
def decode (origin : Origin) : Json → Json.Decoded Operation :=
  Json.asNamed origin (all.map fun op => (op.text, op))

end Operation

/-- The key of a rule: there is at most one rule per table and operation. -/
structure RuleKey where
  table : String
  operation : Operation
  deriving DecidableEq, Repr, Inhabited

namespace RuleKey

def text (k : RuleKey) : String := k.table ++ "." ++ k.operation.text

def lt (a b : RuleKey) : Bool :=
  a.table < b.table || (a.table == b.table && a.operation.rank < b.operation.rank)

end RuleKey

end RowPolicy
