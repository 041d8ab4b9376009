import RowPolicy.Database.Table
import RowPolicy.FileFault
import RowPolicy.Stamp.Instant
import RowPolicy.Stamp.Uuid

/-!
# Surroundings of a command

A command reads files, opens and saves databases, asks for the time and takes new identifiers. A
`Host` provides these; a `Folder` is a host that is held in memory.
-/

namespace RowPolicy.Command

/-- What a command needs from outside. -/
structure Host (m : Type → Type) where
  readText : String → m (Except FileFault String)
  isFile : String → m Bool
  /-- The directory of the user's configuration files. -/
  configHome : m (Option String)
  /-- The database at a path, which is empty if there is no file yet; none if it cannot be
  opened. -/
  openDatabase : String → m (Option Database)
  saveDatabase : String → Database → m Unit
  now : m Instant
  /-- Identifiers that were not given out before. -/
  freshIds : m (Nat → Uuid)

/-! ### Paths -/

def addPart (parts : List String) (part : String) : List String :=
  if part.isEmpty || part == "." then parts
  else if part == ".." then parts.drop 1
  else part :: parts

def pathParts (path : String) : List String := ((path.splitOn "/").foldl addPart []).reverse

/-! ### Folders -/

/-- Files and databases below one directory, by the parts of their paths. -/
structure Folder where
  files : List (List String × String) := []
  databases : List (List String × Database) := []
  /-- The number of commands that took identifiers. -/
  runs : Nat := 0
  deriving Inhabited

namespace Folder

def ofFiles (files : List (String × String)) (path : String) (db : Database) : Folder :=
  { files := files.map fun (p, text) => (pathParts p, text)
    databases := [(pathParts path, db)] }

def hasFile (f : Folder) (parts : List String) : Bool :=
  (f.files.lookup parts).isSome || (f.databases.lookup parts).isSome

def paths (f : Folder) : List (List String) := f.files.map (·.1) ++ f.databases.map (·.1)

def isDirectory (f : Folder) (parts : List String) : Bool :=
  parts.isEmpty || f.paths.any fun p => parts.isPrefixOf p && p != parts

def fault (f : Folder) (parts : List String) : FileFault :=
  if (f.databases.lookup parts).isSome then .notText
  else if f.isDirectory parts then .isDirectory
  else if f.paths.any fun p => p.isPrefixOf parts then .notDirectory
  else .missing

def text (f : Folder) (path : String) : Except FileFault String :=
  let parts := pathParts path
  match f.files.lookup parts with
  | some text => .ok text
  | none => .error (f.fault parts)

/-- The database at a path. An empty file is an empty database, and a new one needs its
directory. -/
def database (f : Folder) (path : String) : Option Database :=
  let parts := pathParts path
  match f.databases.lookup parts, f.files.lookup parts with
  | some db, _ => some db
  | none, some text => if text.isEmpty then some {} else none
  | none, none =>
    if f.isDirectory parts then none
    else if f.isDirectory parts.dropLast then some {}
    else none

def save (f : Folder) (path : String) (db : Database) : Folder :=
  let parts := pathParts path
  { f with
    files := f.files.filter fun p => p.1 != parts
    databases := (parts, db) :: f.databases.filter fun p => p.1 != parts }

/-- The folder as the surroundings of a command, at a given time. -/
def host (now : Instant) : Host (StateM Folder) where
  readText path := do return (← get).text path
  isFile path := do return (← get).hasFile (pathParts path)
  configHome := pure (some "xdg")
  openDatabase path := do return (← get).database path
  saveDatabase path db := modify fun f => f.save path db
  now := pure now
  freshIds := do
    let runs := (← get).runs
    modify fun f => { f with runs := runs + 1 }
    return fun n => Uuid.nth (4294967296 * runs + n)

end Folder

end RowPolicy.Command
