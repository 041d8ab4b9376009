import RowPolicy.Operation
import RowPolicy.Plan.Fragment

/-!
# Plans

What is enforced for a rule: a read has a filtered view and, unless its predicate holds a
disjunction, an accessor that checks the caller's values one by one; a write has a guard.
-/

namespace RowPolicy

/-- The rows and columns that a read shows. -/
structure ReadView where
  table : String
  /-- The columns in order; all of them if the list is empty. -/
  projection : List String
  filter : Fragment
  deriving Inhabited

/-- A read that checks values supplied by the caller first. -/
structure Accessor where
  table : String
  projection : List String
  conditions : List Condition
  deriving DecidableEq, Repr, Inhabited

namespace Accessor

def checks (a : Accessor) : List Check := a.conditions.filterMap Condition.check?

def addColumn (columns : List String) (column : String) : List String :=
  if columns.contains column then columns else columns ++ [column]

/-- The columns that the caller supplies values for, by first appearance. -/
def parameters (a : Accessor) : List String := (a.checks.map Check.column).foldl addColumn []

end Accessor

/-- The predicate of a table's read rule that no accessor can be made for. -/
structure Fallback where
  table : String
  deriving DecidableEq, Repr, Inhabited

namespace Fallback

def reason : String :=
  "the predicate contains a disjunction ('or'), which cannot be checked one condition at a time"

def display (f : Fallback) : String :=
  "validating accessor for '" ++ f.table ++ "' not generated: " ++ reason
    ++ "; the scoped view still applies"

end Fallback

/-- A predicate as a list of conditions, if it has no disjunction. -/
inductive Decomposition where
  | independent (conditions : List Condition)
  | fallback (f : Fallback)
  deriving DecidableEq, Repr, Inhabited

structure GuardCondition where
  /-- The column, or `predicate` for a predicate as a whole. -/
  label : String
  fragment : Fragment
  deriving Inhabited

def GuardCondition.wholeLabel : String := "predicate"

/-- What is enforced for a write. -/
inductive Guard where
  /-- The conditions on a new row. -/
  | create (table : String) (columns : List String) (conditions : List GuardCondition)
  /-- The column that addresses a row, and the condition on that row. -/
  | restrict (table : String) (operation : Operation) (columns : List String) (key : String)
      (filter : Fragment)
  deriving Inhabited

namespace Guard

def table : Guard → String
  | .create table _ _ => table
  | .restrict table _ _ _ _ => table

def operation : Guard → Operation
  | .create _ _ _ => .create
  | .restrict _ operation _ _ _ => operation

end Guard

/-- What is enforced for a rule. -/
inductive CompiledRule where
  | read (view : ReadView) (accessor : Except Fallback Accessor)
  | write (guard : Guard)
  deriving Inhabited

/-- The accessor that a rule lacks, if its predicate has a disjunction. -/
def CompiledRule.fallbacks : CompiledRule → List Fallback
  | .read _ (.error f) => [f]
  | _ => []

end RowPolicy
