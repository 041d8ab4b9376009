import RowPolicy.Json.Value
import RowPolicy.Number.Digits

/-!
# Cells

The values that a database stores, and their JSON form. Truth values are stored as 1 and 0, and
bytes are shown as arrays of numbers.
-/

namespace RowPolicy

inductive Cell where
  | null
  | int (i : Int)
  | real (x : Binary64)
  | text (s : String)
  | blob (bytes : List UInt8)
  deriving DecidableEq, Repr, Inhabited

namespace Cell

/-- The cell of a JSON scalar. An integer beyond 64 bits is stored as a real. -/
def ofJson? : Json → Option Cell
  | .null => some .null
  | .bool b => some (.int (if b then 1 else 0))
  | .int i => some (if Number.isInt64 i then .int i else .real (Binary64.ofInt i))
  | .real x => some (.real x)
  | .str s => some (.text s)
  | .arr _ => none
  | .obj _ => none

/-- The JSON form. A real that is not finite has none and is shown as null. -/
def toJson : Cell → Json
  | .null => .null
  | .int i => .int i
  | .real x => if x.isFinite then .real x else .null
  | .text s => .str s
  | .blob bytes => .arr (bytes.map fun b => .int b.toNat)

end Cell

end RowPolicy
