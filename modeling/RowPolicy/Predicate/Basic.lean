import RowPolicy.DefinitionError
import RowPolicy.Literal
import RowPolicy.Text.Sorted

/-!
# Predicates

The condition of a rule is a tree over four kinds of leaf: a column equals a literal, equals the
principal's id, is among the principal's related ids for a claim, or is among those of the claim's
rows whose property has an allowed value. Trees are joined by conjunction and disjunction.
-/

namespace RowPolicy

inductive Predicate where
  | literalEq (column : String) (value : Literal)
  | identityEq (column : String)
  | membership (column claim : String)
  | propertyCheck (column claim property : String) (allowed : List Literal)
  | and (children : List Predicate)
  | or (children : List Predicate)
  deriving Inhabited, BEq

namespace Predicate

def kinds : List String :=
  ["literal_eq", "identity_eq", "membership", "property_check", "and", "or"]

def kind : Predicate → String
  | .literalEq _ _ => "literal_eq"
  | .identityEq _ => "identity_eq"
  | .membership _ _ => "membership"
  | .propertyCheck _ _ _ _ => "property_check"
  | .and _ => "and"
  | .or _ => "or"

/-! ### Validation -/

mutual

/-- Check names, arities and literals, in the order in which they are written. -/
def validate : Predicate → Checked Unit
  | .literalEq column value => do
    checkName .column column
    if value.isFinite then pure () else throw (.nonFiniteLiteral column)
  | .identityEq column => checkName .column column
  | .membership column claim => do
    checkName .column column
    checkName .claim claim
  | .propertyCheck column claim property allowed => do
    checkName .column column
    checkName .claim claim
    checkName .property property
    if allowed.isEmpty then throw (.emptyAllowedValues claim property)
    if allowed.all Literal.isFinite then pure () else throw (.nonFiniteLiteral column)
  | .and children =>
    if children.isEmpty then .error (.emptyComposite "and") else validateAll children
  | .or children =>
    if children.isEmpty then .error (.emptyComposite "or") else validateAll children

def validateAll : List Predicate → Checked Unit
  | [] => .ok ()
  | p :: rest => do
    validate p
    validateAll rest

end

/-! ### Names in use -/

mutual

def claimList : Predicate → List String
  | .literalEq _ _ => []
  | .identityEq _ => []
  | .membership _ claim => [claim]
  | .propertyCheck _ claim _ _ => [claim]
  | .and children => claimLists children
  | .or children => claimLists children

def claimLists : List Predicate → List String
  | [] => []
  | p :: rest => claimList p ++ claimLists rest

end

mutual

def columnList : Predicate → List String
  | .literalEq column _ => [column]
  | .identityEq column => [column]
  | .membership column _ => [column]
  | .propertyCheck column _ _ _ => [column]
  | .and children => columnLists children
  | .or children => columnLists children

def columnLists : List Predicate → List String
  | [] => []
  | p :: rest => columnList p ++ columnLists rest

end

def claims (p : Predicate) : List String := Text.sortDistinct p.claimList

def columns (p : Predicate) : List String := Text.sortDistinct p.columnList

/-! ### Display -/

mutual

def display : Predicate → String
  | .literalEq column value => column ++ " = " ++ value.display
  | .identityEq column => column ++ " = identity()"
  | .membership column claim => column ++ " in member_of(" ++ claim ++ ")"
  | .propertyCheck column claim property allowed =>
    column ++ " in property_check(" ++ claim ++ ", " ++ property ++ ", ["
      ++ String.intercalate ", " (allowed.map Literal.display) ++ "])"
  | .and children => "(" ++ String.intercalate " AND " (displayAll children) ++ ")"
  | .or children => "(" ++ String.intercalate " OR " (displayAll children) ++ ")"

def displayAll : List Predicate → List String
  | [] => []
  | p :: rest => display p :: displayAll rest

end

end Predicate

end RowPolicy
