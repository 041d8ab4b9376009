import RowPolicy.Literal

/-!
# Fragments and conditions

A fragment is a condition on one row of a table, with every name resolved. A check is a fragment
about a single column that can be tested on a candidate value before any row is looked at.
-/

namespace RowPolicy

/-- The values that a property of a claim's rows may have. -/
structure PropertyFilter where
  property : String
  allowed : List Literal
  deriving DecidableEq, Repr, Inhabited

/-- The rows of a claim that a membership test looks at. -/
structure Lookup where
  claim : String
  property : Option PropertyFilter := none
  deriving DecidableEq, Repr, Inhabited

inductive Fragment where
  | always
  | never
  | literalEq (column : String) (value : Literal)
  | principalEq (column : String)
  | inClaim (column : String) (lookup : Lookup)
  | all (children : List Fragment)
  | any (children : List Fragment)
  deriving Inhabited

/-- What a check asks about a candidate value. -/
inductive CheckKind where
  | principal
  | member (lookup : Lookup)
  deriving DecidableEq, Repr, Inhabited

structure Check where
  column : String
  kind : CheckKind
  deriving DecidableEq, Repr, Inhabited

namespace Check

def fragment (c : Check) : Fragment :=
  match c.kind with
  | .principal => .principalEq c.column
  | .member lookup => .inClaim c.column lookup

/-- Why a value does not pass the check. -/
def describe (c : Check) : String :=
  match c.kind with
  | .principal => "does not match the current principal"
  | .member lookup =>
    "is not among the principal's '" ++ lookup.claim ++ "' entries"
      ++ match lookup.property with
        | some filter => " with an allowed '" ++ filter.property ++ "'"
        | none => ""

end Check

inductive Condition where
  /-- Tested on a value that the caller supplies. -/
  | check (c : Check)
  | baked (column : String) (value : Literal)
  deriving DecidableEq, Repr, Inhabited

namespace Condition

def column : Condition → String
  | .check c => c.column
  | .baked column _ => column

def fragment : Condition → Fragment
  | .check c => c.fragment
  | .baked column value => .literalEq column value

def check? : Condition → Option Check
  | .check c => some c
  | .baked _ _ => none

end Condition

end RowPolicy
