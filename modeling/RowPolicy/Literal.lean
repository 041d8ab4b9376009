import RowPolicy.Json.Decode

/-!
# Literals

A plain value that a column is compared with.
-/

namespace RowPolicy

inductive Literal where
  | null
  | bool (b : Bool)
  | int (i : Int)
  | real (x : Binary64)
  | text (s : String)
  deriving DecidableEq, Inhabited, Repr

namespace Literal

def isFinite : Literal → Bool
  | .real x => x.isFinite
  | _ => true

/-- The literal as it appears in messages. -/
def display : Literal → String
  | .null => "null"
  | .bool b => if b then "true" else "false"
  | .int i => Number.intText i
  | .real x => x.plainText
  | .text s => "'" ++ s ++ "'"

/-- The JSON form. A real that is not finite has none and is written null. -/
def toJson : Literal → Json
  | .null => .null
  | .bool b => .bool b
  | .int i => .int i
  | .real x => if x.isFinite then .real x else .null
  | .text s => .str s

/-- Decode a scalar. An integer beyond 64 bits is a real. -/
def decode : Json → Json.Decoded Literal
  | .null => .ok .null
  | .bool b => .ok (.bool b)
  | .int i => .ok (if Number.isInt64 i then .int i else .real (Binary64.ofInt i))
  | .real x => .ok (.real x)
  | .str s => .ok (.text s)
  | .arr _ => .error (.noVariant "Literal")
  | .obj _ => .error (.noVariant "Literal")

end Literal

end RowPolicy
