import RowPolicy.FileFault
import RowPolicy.Operation
import RowPolicy.Text.Name

/-!
# Definition errors

Why a rule, a claim or a policy document is refused. Nothing of a refused definition takes effect.
-/

namespace RowPolicy

/-- Why a definition does not have the expected form. -/
inductive Malformation where
  /-- A value of a wrong form. -/
  | decode (e : DecodeError)
  /-- Something other than an object where a predicate node is wanted. -/
  | notNode (found : Json)
  /-- A predicate node with no kind or several. -/
  | kindCount (found : Nat)
  | unknownOperation (name : String)
  /-- A claim whose query is blank. -/
  | blankQuery (claim : String)
  /-- An attribute that is exposed twice or has a reserved name. -/
  | attributeClash (claim attr : String)
  /-- A claim query that holds no statement. -/
  | noStatement (view : String)
  /-- A claim query that is not a plain selection. -/
  | notSelect (view : String)
  /-- A claim query with more than one statement. -/
  | manyStatements (view : String)
  /-- A document that does not have the expected form, and the line and column if known. -/
  | document (text : String) (place : Option (Nat × Nat))
  /-- A document that is no sequence of well-formed values. -/
  | unreadable
  deriving Inhabited

inductive DefinitionError where
  | emptyComposite (kind : String)
  | unknownNodeKind (kind : String)
  | malformed (cause : Malformation)
  | invalidName (kind : NameKind) (name : String)
  | nonFiniteLiteral (column : String)
  | emptyAllowedValues (claim property : String)
  | projectionOnWrite (table : String) (operation : Operation)
  | duplicateProjection (table column : String)
  | unknownTable (table : String)
  | unknownColumn (table column : String)
  | unknownClaim (claim : String)
  | unknownProperty (claim property : String)
  | missingReadRule (table : String) (operation : Operation)
  | claimInUse (claim : String) (rules : List RuleKey)
  | unsupportedKey (table : String) (key : List String)
  /-- A document that cannot be read from its file. -/
  | file (path : String) (fault : FileFault)
  deriving Inhabited

def Malformation.message : Malformation → String
  | .decode e => e.message
  | .notNode found => "expected a predicate node, found " ++ found.compact
  | .kindCount found =>
    "a predicate node has exactly one kind key, found " ++ Number.natText found
  | .unknownOperation name =>
    "unknown operation '" ++ name ++ "' (expected read, create, update or delete)"
  | .blankQuery claim => "claim '" ++ claim ++ "' has an empty query"
  | .attributeClash claim attr =>
    "claim '" ++ claim ++ "' exposes attribute '" ++ attr
      ++ "' more than once or under a reserved name"
  | .noStatement view => "claim query for '" ++ view ++ "' is empty"
  | .notSelect view => "claim query for '" ++ view ++ "' must be a SELECT"
  | .manyStatements view => "claim query for '" ++ view ++ "' must be a single statement"
  | .document text _ => text
  | .unreadable => "the document cannot be read"

def Malformation.placedMessage : Malformation → String
  | .document text (some (line, column)) =>
    text ++ " at line " ++ Number.natText line ++ " column " ++ Number.natText column
  | m => m.message

def DefinitionError.message : DefinitionError → String
  | .emptyComposite kind => "'" ++ kind ++ "' requires at least one condition"
  | .unknownNodeKind kind => "unknown predicate node kind '" ++ kind ++ "'"
  | .malformed cause => "malformed definition: " ++ cause.message
  | .invalidName kind name => "invalid " ++ kind.text ++ " name '" ++ name ++ "'"
  | .nonFiniteLiteral column =>
    "literal compared against '" ++ column ++ "' is not a finite number"
  | .emptyAllowedValues claim property =>
    "property check on '" ++ claim ++ "." ++ property ++ "' lists no allowed values"
  | .projectionOnWrite table operation =>
    operation.text ++ " rule for '" ++ table ++ "' cannot declare a projection"
  | .duplicateProjection table column =>
    "column '" ++ column ++ "' appears more than once in the projection of '" ++ table ++ "'"
  | .unknownTable table => "unknown table '" ++ table ++ "'"
  | .unknownColumn table column => "unknown column '" ++ column ++ "' on table '" ++ table ++ "'"
  | .unknownClaim claim => "unknown claim '" ++ claim ++ "'"
  | .unknownProperty claim property =>
    "claim '" ++ claim ++ "' does not expose property '" ++ property ++ "'"
  | .missingReadRule table operation =>
    "missing read rule for table '" ++ table ++ "' (required by its " ++ operation.text ++ " rule)"
  | .claimInUse claim rules =>
    "claim '" ++ claim ++ "' is still referenced by "
      ++ String.intercalate ", " (rules.map RuleKey.text)
  | .unsupportedKey table key =>
    "table '" ++ table ++ "' has no single-column key: composite primary key ("
      ++ String.intercalate ", " key ++ ")"
  | .file path fault => "failed to read policy document at " ++ path ++ ": " ++ fault.message

def DefinitionError.placedMessage : DefinitionError → String
  | .malformed cause => "malformed definition: " ++ cause.placedMessage
  | e => e.message

/-- A result that may be refused. -/
abbrev Checked := Except DefinitionError

def checkName (kind : NameKind) (name : String) : Checked Unit :=
  if Text.isPlainName name then .ok () else .error (.invalidName kind name)

def Operation.parse (name : String) : Checked Operation :=
  match Operation.ofText? name with
  | some op => .ok op
  | none => .error (.malformed (.unknownOperation name))

end RowPolicy
