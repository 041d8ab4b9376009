/-!
# Faults of files
-/

namespace RowPolicy

inductive FileFault where
  | missing
  | notDirectory
  | isDirectory
  /-- The bytes are no text. -/
  | notText
  deriving DecidableEq, Repr, Inhabited

def FileFault.message : FileFault → String
  | .missing => "No such file or directory (os error 2)"
  | .notDirectory => "Not a directory (os error 20)"
  | .isDirectory => "Is a directory (os error 21)"
  | .notText => "stream did not contain valid UTF-8"

end RowPolicy
