import RowPolicy.Command.Run
import RowPolicy.Database.Image
import Std.Time.DateTime.Timestamp

/-!
# The program

Runs a command line on the files of the computer. A database is kept as the text of its image.
-/

namespace RowPolicy.Command.Computer

def readTextFile (path : String) : IO (Except FileFault String) := do
  try
    let bytes ← IO.FS.readBinFile path
    return match String.fromUTF8? bytes with
      | some text => .ok text
      | none => .error .notText
  catch e =>
    return match e with
      | .inappropriateType .. => .error .isDirectory
      | _ => .error .missing

/-- Whether a path is that of a file that can be read. -/
def isReadableFile (path : String) : IO Bool := do
  match ← readTextFile path with
  | .error .missing => return false
  | .error .isDirectory => return false
  | _ => return true

/-- The database in a file. A new one needs its directory. -/
def openDatabaseFile (path : String) : IO (Option Database) := do
  match ← readTextFile path with
  | .ok text =>
    if text.isEmpty then return some {}
    return match Json.parse text with
      | .ok image => some (Database.ofImage image)
      | .error _ => none
  | .error .missing =>
    try
      IO.FS.writeFile path ""
      return some {}
    catch _ => return none
  | .error _ => return none

def currentInstant : IO Instant := do
  let stamp ← Std.Time.Timestamp.now
  let nanos := stamp.toNanosecondsSinceUnixEpoch.val
  return ⟨nanos / 1000000000, (nanos % 1000000000).toNat⟩

def host : Host IO where
  readText := readTextFile
  isFile := isReadableFile
  configHome := do
    match ← IO.getEnv "XDG_CONFIG_HOME", ← IO.getEnv "HOME" with
    | some dir, _ => return some dir
    | none, some home => return some (home ++ "/.config")
    | none, none => return none
  openDatabase := openDatabaseFile
  saveDatabase path db := IO.FS.writeFile path db.image.compact
  now := currentInstant
  freshIds := do
    let base ← IO.rand 0 (Nat.pow 2 60)
    return fun n => Uuid.nth (base + n)

end RowPolicy.Command.Computer

def main (args : List String) : IO UInt32 := do
  let outcome ← RowPolicy.Command.run RowPolicy.Command.Computer.host args
  IO.print outcome.output
  IO.eprint outcome.errors
  return UInt32.ofNat outcome.code
