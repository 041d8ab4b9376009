import RowPolicy.Catalog
import RowPolicy.Plan.Basic

/-!
# Compilation

A rule is checked, its names are resolved against a catalog, and its predicate is lowered to a
fragment and taken apart into conditions. A write rule without a predicate permits nothing.
-/

namespace RowPolicy

namespace Catalog

/-! ### Names -/

def resolveTable (c : Catalog) (name : String) : Checked TableShape :=
  match c.table? name with
  | some t => .ok t
  | none => .error (.unknownTable name)

/-- Refuse a column that the table does not have. -/
def resolveColumn (t : TableShape) (column : String) : Checked Unit :=
  if t.hasColumn column then .ok () else .error (.unknownColumn t.name column)

def resolveColumns (t : TableShape) : List String → Checked Unit
  | [] => .ok ()
  | column :: rest => do
    resolveColumn t column
    resolveColumns t rest

/-- Refuse a lookup of a claim that is not defined or of a property that it does not expose. -/
def resolveLookup (c : Catalog) (lookup : Lookup) : Checked Unit :=
  match c.claim? lookup.claim with
  | none => .error (.unknownClaim lookup.claim)
  | some claim =>
    match lookup.property with
    | none => .ok ()
    | some filter =>
      if claim.exposes filter.property then .ok ()
      else .error (.unknownProperty lookup.claim filter.property)

def memberCheck (c : Catalog) (t : TableShape) (column : String) (lookup : Lookup) :
    Checked Check := do
  resolveColumn t column
  c.resolveLookup lookup
  pure ⟨column, .member lookup⟩

/-- The column that addresses a row. -/
def resolveKey (t : TableShape) : Checked String :=
  match t.key with
  | .column name => .ok name
  | .rowId => .ok "rowid"
  | .composite columns => .error (.unsupportedKey t.name columns)

/-! ### Predicates -/

def collapse (wrap : List Fragment → Fragment) : List Fragment → Fragment
  | [f] => f
  | fs => wrap fs

mutual

/-- Lower a predicate to a condition on a row. -/
def lower (c : Catalog) (t : TableShape) : Predicate → Checked Fragment
  | .literalEq column value => do
    resolveColumn t column
    pure (.literalEq column value)
  | .identityEq column => do
    resolveColumn t column
    pure (.principalEq column)
  | .membership column claim => do
    let check ← c.memberCheck t column ⟨claim, none⟩
    pure check.fragment
  | .propertyCheck column claim property allowed => do
    let check ← c.memberCheck t column ⟨claim, some ⟨property, allowed⟩⟩
    pure check.fragment
  | .and children => do
    let fs ← lowerAll c t children
    pure (collapse .all fs)
  | .or children => do
    let fs ← lowerAll c t children
    pure (collapse .any fs)

def lowerAll (c : Catalog) (t : TableShape) : List Predicate → Checked (List Fragment)
  | [] => .ok []
  | p :: rest => do
    let f ← lower c t p
    let fs ← lowerAll c t rest
    pure (f :: fs)

end

mutual

/-- The leaves of a predicate up to the first disjunction; `none` if there is one. -/
def conditions (c : Catalog) (t : TableShape) : Predicate → Checked (Option (List Condition))
  | .literalEq column value => do
    resolveColumn t column
    pure (some [.baked column value])
  | .identityEq column => do
    resolveColumn t column
    pure (some [.check ⟨column, .principal⟩])
  | .membership column claim => do
    let check ← c.memberCheck t column ⟨claim, none⟩
    pure (some [.check check])
  | .propertyCheck column claim property allowed => do
    let check ← c.memberCheck t column ⟨claim, some ⟨property, allowed⟩⟩
    pure (some [.check check])
  | .and children => conditionsAll c t children
  | .or _ => .ok none

def conditionsAll (c : Catalog) (t : TableShape) :
    List Predicate → Checked (Option (List Condition))
  | [] => .ok (some [])
  | p :: rest => do
    match ← conditions c t p with
    | none => pure none
    | some first =>
      match ← conditionsAll c t rest with
      | none => pure none
      | some more => pure (some (first ++ more))

end

/-- Take a predicate apart into conditions that can be checked one by one. -/
def decompose (c : Catalog) (t : TableShape) (p : Predicate) : Checked Decomposition := do
  match ← c.conditions t p with
  | some cs => pure (.independent cs)
  | none => pure (.fallback ⟨t.name⟩)

/-! ### Rules and claims -/

def lowerOption (c : Catalog) (t : TableShape) : Option Predicate → Checked (Option Fragment)
  | none => .ok none
  | some p => do
    let f ← c.lower t p
    pure (some f)

def compileAccessor (c : Catalog) (t : TableShape) (r : Rule) :
    Checked (Except Fallback Accessor) := do
  let decomposition ← match r.predicate with
    | some p => c.decompose t p
    | none => pure (.independent [])
  match decomposition with
  | .independent cs => pure (.ok ⟨t.name, r.projection, cs⟩)
  | .fallback f => pure (.error f)

def createConditions (c : Catalog) (t : TableShape) (predicate : Option Predicate)
    (filter : Option Fragment) : Checked (List GuardCondition) := do
  match predicate with
  | none => pure [⟨GuardCondition.wholeLabel, .never⟩]
  | some p =>
    match ← c.decompose t p with
    | .independent cs => pure (cs.map fun cond => ⟨cond.column, cond.fragment⟩)
    | .fallback _ => pure [⟨GuardCondition.wholeLabel, filter.getD .never⟩]

def compileRule (c : Catalog) (r : Rule) : Checked CompiledRule := do
  r.validate
  let t ← c.resolveTable r.table
  resolveColumns t r.projection
  let filter ← c.lowerOption t r.predicate
  match r.operation with
  | .read =>
    let accessor ← c.compileAccessor t r
    pure (.read ⟨t.name, r.projection, filter.getD .always⟩ accessor)
  | .create =>
    let conditions ← c.createConditions t r.predicate filter
    pure (.write (.create t.name t.columns conditions))
  | .update =>
    let key ← resolveKey t
    pure (.write (.restrict t.name .update t.columns key (filter.getD .never)))
  | .delete =>
    let key ← resolveKey t
    pure (.write (.restrict t.name .delete t.columns key (filter.getD .never)))

/-- Check a claim: the columns of a table are resolved, those of a query are not known yet. -/
def compileClaim (c : Catalog) (claim : Claim) : Checked Unit := do
  claim.validate
  match claim.source with
  | .query _ => pure ()
  | .table name =>
    let t ← c.resolveTable name
    resolveColumn t claim.principalColumn
    resolveColumn t claim.valueColumn
    resolveColumns t claim.attributes

end Catalog

end RowPolicy
