import RowPolicy.Command.Form

/-!
# The command line

The commands of the program and what they are given.
-/

namespace RowPolicy.Command

inductive Action where
  | apply (file : String)
  | listRules
  /-- Drop the rules of a table, or the one for an operation. -/
  | dropRules (table : String) (operation : Option Operation)
  | listClaims
  | dropClaim (name : String)
  | listArtifacts
  | rebuild
  | read (table : String) (caller : Option String)
  | fetch (table : String) (caller : Option String) (params : List String)
  deriving Inhabited

def programName : String := "tablegate"

def versionText : String := programName ++ " 0.3.0\n"

def commonSwitches : List Switch :=
  [⟨"config", .path, "CONFIG",
      "Config file (defaults to ./tablegate.toml, then the user config dir)", false⟩,
    ⟨"database", .path, "DATABASE", "Database file, overriding the configured one", false⟩]

def callerSwitch : Switch :=
  ⟨"as", .text, "AS_ID", "Principal identifier; omit to read anonymously", false⟩

def ruleForms : List (Form Action) :=
  [.leaf "list" "List every rule" none [] fun _ => .listRules,
    .leaf "drop" "Drop the rules of a table (all operations unless --operation is given)"
      (some ⟨"TABLE", .text, ""⟩)
      [⟨"operation", .operation, "OPERATION",
        "Drop only this operation's rule (read, create, update, delete)", false⟩]
      fun g => .dropRules g.argument ((g.get? "operation").bind Operation.ofText?)]

def claimForms : List (Form Action) :=
  [.leaf "list" "List every claim" none [] fun _ => .listClaims,
    .leaf "drop" "Drop a claim. Refused while any rule still references it"
      (some ⟨"NAME", .text, ""⟩) [] fun g => .dropClaim g.argument]

def form : Form Action :=
  .branch programName "CLI for applying and inspecting tablegate policy"
    [.leaf "apply" "Apply a YAML policy document (claims and rules) in one transaction"
        (some ⟨"FILE", .path, "Path to the policy document"⟩) [] fun g => .apply g.argument,
      .branch "rules" "Manage rules" ruleForms,
      .branch "claims" "Manage claims" claimForms,
      .leaf "artifacts" "List generated artifacts" none [] fun _ => .listArtifacts,
      .leaf "rebuild" "Regenerate every artifact from the stored definitions" none []
        fun _ => .rebuild,
      .leaf "read" "Read every visible row of a table (silent filtering)"
        (some ⟨"TABLE", .text, ""⟩) [callerSwitch] fun g => .read g.argument (g.get? "as"),
      .leaf "fetch" "Targeted read through the validating accessor (explicit refusals)"
        (some ⟨"TABLE", .text, ""⟩)
        [callerSwitch, ⟨"param", .text, "PARAMS",
          "Accessor parameter as col=value; repeat for each column", true⟩]
        fun g => .fetch g.argument (g.get? "as") (g.all "param")]

def parseArgs (args : List String) : Parsed Action :=
  form.read commonSwitches { words := [programName] } args

end RowPolicy.Command
