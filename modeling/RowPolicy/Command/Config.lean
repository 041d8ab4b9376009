import RowPolicy.Artifact.Naming
import RowPolicy.FileFault
import RowPolicy.Toml.Document

/-!
# Configuration

A configuration file names the database, the stem of artifact names and the filter of the log.
Everything may be left out.
-/

namespace RowPolicy

structure Config where
  database : String := "tablegate.db"
  naming : Naming := {}
  logFilter : String := "warn"
  deriving Inhabited

inductive ConfigError where
  | unreadable (path : String) (fault : FileFault)
  | invalid (path : String)
  deriving DecidableEq, Repr, Inhabited

def ConfigError.message : ConfigError → String
  | .unreadable path _ => "failed to read config " ++ path
  | .invalid path => "invalid config " ++ path

namespace Config

open Toml (Item)

def fieldText (absent : String) : Option Item → Option String
  | none => some absent
  | some (.text s) => some s
  | some _ => none

/-- The only field of a section: by its name in a table, or as the first item of a list. A date is
a section without fields. -/
def sectionText (field absent : String) : Option Item → Option String
  | none => some absent
  | some (.table t) => fieldText absent (t.get? field)
  | some (.inline t) => fieldText absent (t.get? field)
  | some (.list items) => fieldText absent items.head?
  | some (.moment _) => some absent
  | some _ => none

def ofTable (t : Toml.Table) : Option Config := do
  let default : Config := {}
  let database ← sectionText "path" default.database (t.get? "database")
  let stem ← sectionText "prefix" default.naming.stem (t.get? "artifacts")
  let logFilter ← sectionText "filter" default.logFilter (t.get? "logging")
  some ⟨database, ⟨stem⟩, logFilter⟩

def parse (text : String) : Option Config := do
  let t ← Toml.parse text
  ofTable t

def load (path : String) (content : Except FileFault String) : Except ConfigError Config :=
  match content with
  | .error fault => .error (.unreadable path fault)
  | .ok text =>
    match parse text with
    | some c => .ok c
    | none => .error (.invalid path)

end Config

end RowPolicy
