import RowPolicy.Document.Basic
import RowPolicy.Yaml.Decode

/-!
# Reading of policy documents

A document is a YAML record with a list of claims and one of rules, both of which may be left out.
The form of all claims and rules is checked first; then operations and predicates are read.
-/

namespace RowPolicy

namespace Document

open Yaml (Shape)

def claimShape : Shape :=
  .record "struct ClaimDefinition" [("name", true, .text),
    ("source", true, .choice "ClaimSource" ["table", "sql"]), ("principal_column", true, .text),
    ("value_column", true, .text), ("attributes", false, .list .text)]

/-- The form of a rule. Its operation and predicate are read later. -/
def ruleShape : Shape :=
  .record "struct RawRule" [("table", true, .text), ("operation", true, .text),
    ("projection", false, .list .text), ("predicate", false, .optional)]

def shape : Shape :=
  .record "struct RawDocument" [("claims", false, .list claimShape),
    ("rules", false, .list ruleShape)]

/-! ### Errors -/

/-- The text of a real where something else is expected: it shows that it is one. -/
def realText (x : Binary64) : String :=
  let text := x.plainText
  if x.isFinite && !text.toList.contains '.' then text ++ ".0" else text

def failureText (path : String) (e : DecodeError) : String :=
  let text := e.messageWith (Found.describe "unit value" realText)
  if path == Yaml.rootPath then text else path ++ ": " ++ text

def malformation : Yaml.Failure → Malformation
  | .unplaced e => .document (failureText Yaml.rootPath e) none
  | .placed e path mark =>
    .document (failureText path e)
      (if mark.line == 0 && mark.column == 0 then none else some (mark.line + 1, mark.column + 1))
  | .limit => .unreadable

/-! ### Reading -/

def decoded {α : Type} (r : Json.Decoded α) : Checked α :=
  r.mapError fun e => .malformed (.decode e)

def readRule (j : Json) : Checked Rule := do
  let operation ← Operation.parse (j.textAt "operation")
  let predicate ← match j.field? "predicate" with
    | some p => (Predicate.parse p).map some
    | none => pure none
  pure ⟨j.textAt "table", operation, (j.itemsAt "projection").map Json.textOf, predicate⟩

def read (s : Yaml.Stream) : Checked Document := do
  let j ← (Yaml.decode s shape).mapError fun f => .malformed (malformation f)
  let claims ← (j.itemsAt "claims").mapM fun c => decoded (Claim.decode c)
  let rules ← (j.itemsAt "rules").mapM readRule
  pure ⟨claims, rules⟩

/-- Read a document from a text. What is wrong with it is told if it is a value at all. -/
def parse (text : String) : Checked Document :=
  match Yaml.parse text with
  | none => .error (.malformed .unreadable)
  | some s =>
    match read s with
    | .error (.malformed cause) =>
      .error (.malformed (if Yaml.isValue s then cause else .unreadable))
    | r => r

/-- Read a document from the content of a file, if there is any. -/
def load (path : String) (content : Except FileFault String) : Checked Document :=
  match content with
  | .ok text => parse text
  | .error fault => .error (.file path fault)

def toJson (d : Document) : Json :=
  .obj [("claims", .arr (d.claims.map Claim.toJson)), ("rules", .arr (d.rules.map Rule.toJson)),
    ("ordered", .arr (d.orderedRules.map fun r => .str r.key.text)),
    ("display", .arr (d.rules.map fun r => match r.predicate with
      | some p => .str p.display
      | none => .null))]

end Document

end RowPolicy
