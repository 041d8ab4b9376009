import RowPolicy.Admin.Summary
import RowPolicy.Text.Padded

/-!
# What the commands print

Listings in columns, summaries of what was installed, and the texts of failures with their causes.
-/

namespace RowPolicy.Command

/-! ### Failures -/

/-- Why a command fails: what it says, and the causes behind that. -/
structure Failure where
  message : String
  causes : List String := []
  deriving Inhabited

namespace Failure

/-- Text with spaces behind every line break. -/
def indented (width : Nat) (s : String) : String :=
  String.intercalate ("\n" ++ Text.repeated width ' ') (s.splitOn "\n")

def causeLines : List String → String
  | [] => ""
  | [cause] => "\nCaused by:\n    " ++ indented 4 cause ++ "\n"
  | causes =>
    "\nCaused by:\n" ++ String.join (causes.zipIdx.map fun (cause, i) =>
      "    " ++ Number.natText i ++ ": " ++ indented 7 cause ++ "\n")

def text (f : Failure) : String := "Error: " ++ f.message ++ "\n" ++ causeLines f.causes

def within (context : String) (f : Failure) : Failure := ⟨context, f.message :: f.causes⟩

/-- An error of the database behind something said about it. -/
def ofStorage (lead : String) (e : StorageError) : Failure := ⟨lead ++ e.message, [e.message]⟩

def ofStore : StoreError → Failure
  | .storage e => ofStorage "database error: " e
  | .unreadable e => ⟨"serialization error: " ++ e.message, [e.message]⟩

def ofDefinition (e : DefinitionError) : Failure :=
  match e with
  | .file _ fault => ⟨e.message, [fault.message]⟩
  | e => ⟨e.placedMessage, []⟩

def ofAdmin : AdminError → Failure
  | .definition e => ofDefinition e
  | .install identifier e => ofStorage ("failed to install artifact '" ++ identifier ++ "': ") e
  | .store e => ofStore e

def ofAccess (e : AccessError) : Failure :=
  match e with
  | .store e => ofStore e
  | e => ⟨e.message?.getD "", []⟩

end Failure

/-! ### Listings -/

/-- A line of cells, each filled up to its width but for the last. -/
def cells (widths : List Nat) (texts : List String) : String :=
  match widths, texts with
  | w :: ws, t :: ts => Text.padRight w t ++ " " ++ cells ws ts
  | _, ts => String.intercalate " " ts

def unlines (lines : List String) : String := String.join (lines.map (· ++ "\n"))

/-- A listing with a head and a rule below it, or a remark if there is nothing to list. -/
def listing {α : Type} (remark head : String) (width : Nat) (row : α → List String)
    (items : List α) : String :=
  if items.isEmpty then unlines [remark]
  else unlines (head :: Text.repeated width '-' :: items.flatMap row)

def ruleWidths : List Nat := [24, 8, 26]

def ruleListing (rules : List RuleRecord) : String :=
  listing "No rules defined." (cells ruleWidths ["TABLE", "OP", "UPDATED", "PREDICATE"]) 90
    (fun r => [cells ruleWidths [r.body.table, r.body.operation.text, r.updatedAt.listingText,
      match r.body.predicate with
      | some p => p.display
      | none => "-"]]) rules

def claimWidths : List Nat := [20, 18, 18]

def sourceText : ClaimSource → String
  | .table name => "table " ++ name
  | .query sql => "query " ++ sql

/-- The lines of a claim; the attributes have one of their own. -/
def claimRow (c : ClaimRecord) : List String :=
  cells claimWidths [c.body.name, c.body.principalColumn, c.body.valueColumn,
      sourceText c.body.source]
    :: (if c.body.attributes.isEmpty then []
        else [cells [20] ["", "attributes: " ++ String.intercalate ", " c.body.attributes]])

def claimListing (claims : List ClaimRecord) : String :=
  listing "No claims defined." (cells claimWidths ["NAME", "PRINCIPAL", "VALUE", "SOURCE"]) 80
    claimRow claims

def artifactWidths : List Nat := [36, 14, 20]

def artifactListing (artifacts : List ArtifactRecord) : String :=
  listing "No artifacts installed."
    (cells artifactWidths ["IDENTIFIER", "KIND", "TARGET", "FINGERPRINT"]) 90
    (fun a => [cells artifactWidths [a.identifier, a.kind.text, a.target,
      String.ofList (a.fingerprint.toList.take 12)]]) artifacts

/-! ### Summaries -/

def summaryLines (s : Summary) : List String :=
  (s.subject ++ ": " ++ Number.natText s.artifacts.length ++ " artifact(s) installed, "
      ++ Number.natText s.removed ++ " replaced")
    :: (s.fallbacks.map fun f => "  warning: " ++ f.display)
    ++ s.recompiled.map fun k => "  recompiled " ++ k.text

def summaryText (summaries : List Summary) (closing : String) : String :=
  unlines (summaries.flatMap summaryLines ++ [closing])

/-- The rows of an answer, one JSON object to a line. -/
def rowText (rows : List Json.Fields) : String :=
  unlines (rows.map fun row => (Json.obj row).compact)

end RowPolicy.Command
