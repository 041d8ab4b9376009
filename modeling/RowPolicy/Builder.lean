import RowPolicy.Rule

/-!
# Constructors for rules

Short names for writing rules down:
`rule "documents" (select ["id"]) (some (eq "owner" .identity))`.
They only build values; nothing is checked.
-/

namespace RowPolicy.Builder

/-- The operation of a rule, and the columns of a read. -/
structure Target where
  operation : Operation
  projection : List String
  deriving DecidableEq, Repr, Inhabited

inductive Operand where
  | identity
  | memberOf (claim : String)
  | property (claim property : String) (allowed : List Literal)
  | literal (value : Literal)
  deriving Inhabited

/-- Read the given columns, or all of them if there are none. -/
def select (columns : List String) : Target := ⟨.read, columns⟩

def create : Target := ⟨.create, []⟩

def update : Target := ⟨.update, []⟩

def delete : Target := ⟨.delete, []⟩

def eq (column : String) : Operand → Predicate
  | .identity => .identityEq column
  | .memberOf claim => .membership column claim
  | .property claim property allowed => .propertyCheck column claim property allowed
  | .literal value => .literalEq column value

/-- A predicate wrapped `n` times in a connective with one child. -/
def nest (wrap : List Predicate → Predicate) : Nat → Predicate → Predicate
  | 0, p => p
  | n + 1, p => wrap [nest wrap n p]

def rule (table : String) (target : Target) (predicate : Option Predicate) : Rule :=
  ⟨table, target.operation, target.projection, predicate⟩

end RowPolicy.Builder
