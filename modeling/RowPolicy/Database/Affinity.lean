import RowPolicy.Database.Cell
import RowPolicy.Number.Decimal
import RowPolicy.Number.Layout
import RowPolicy.Text.Name
import RowPolicy.Text.Utf8

/-!
# Affinities

The declared type of a column gives it an affinity, which decides how values are converted when
they are stored and compared. A text is converted to a number only if all of it, apart from blanks
at both ends, is one.
-/

namespace RowPolicy

/-- The kind of value that a column prefers. -/
inductive Affinity where
  /-- Not a column. -/
  | none
  /-- A column that takes values as they are. -/
  | blob
  | text
  | numeric
  | integer
  | real
  deriving DecidableEq, Repr, Inhabited

namespace Affinity

/-- Whether `part` occurs in `cs`. -/
def occurs (part : List Char) : List Char → Bool
  | [] => part.isEmpty
  | c :: cs => part.isPrefixOf (c :: cs) || occurs part cs

def ofType (type : String) : Affinity :=
  let upper := type.toList.map Char.toUpper
  let holds (word : String) : Bool := occurs word.toList upper
  if holds "INT" then .integer
  else if holds "CHAR" || holds "CLOB" || holds "TEXT" then .text
  else if upper.isEmpty || holds "BLOB" then .blob
  else if holds "REAL" || holds "FLOA" || holds "DOUB" then .real
  else .numeric

def isNumeric : Affinity → Bool
  | .none => false
  | .blob => false
  | .text => false
  | _ => true

end Affinity

namespace Cell

/-! ### Numbers in texts -/

def isNumberBlank (c : Char) : Bool := c == ' ' || (9 ≤ c.toNat && c.toNat ≤ 13)

def numberText (s : String) : List Char :=
  ((s.toList.dropWhile isNumberBlank).reverse.dropWhile isNumberBlank).reverse

def isIntegerText (cs : List Char) : Bool :=
  let ds := (Binary64.splitSign cs).2
  !ds.isEmpty && ds.all Char.isDigit

def integerOf (cs : List Char) : Int :=
  let (negative, ds) := Binary64.splitSign cs
  let n : Int := Number.ofDigits ds
  if negative then -n else n

/-- The number that a text writes, if it writes one. -/
def numberOfText? (s : String) : Option Cell :=
  let cs := numberText s
  let (negative, ds) := Binary64.splitSign cs
  if isIntegerText cs && Number.isInt64 (integerOf cs) then some (.int (integerOf cs))
  else (Binary64.readMagnitude negative ds).map .real

/-- A real that equals an integer well inside 64 bits, as that integer. -/
def integral : Cell → Cell
  | .real x =>
    match x.toInt? with
    | some i => if Number.minInt64 < i && i < Number.maxInt64 then .int i else .real x
    | none => .real x
  | c => c

/-! ### Conversions -/

def numberToText : Cell → Cell
  | .int i => .text (Number.intText i)
  | .real x => .text x.storedText
  | c => c

/-- Convert a text that writes a number. -/
def textToNumber : Cell → Cell
  | .text s => (numberOfText? s).getD (.text s)
  | c => c

def intToReal : Cell → Cell
  | .int i => .real (Binary64.ofInt i)
  | c => c

/-- The value as it is compared after storing it with an affinity. -/
def convert (a : Affinity) (c : Cell) : Cell :=
  match a with
  | .none => c
  | .blob => c
  | .text => numberToText c
  | _ => integral (textToNumber c)

def store (a : Affinity) (c : Cell) : Cell :=
  match a with
  | .real => intToReal (convert .real c)
  | _ => convert a c

/-- The value cast to text. Bytes that are no text stay as they are. -/
def castText : Cell → Cell
  | .blob bytes =>
    match Text.decode? bytes with
    | some s => .text s
    | none => .blob bytes
  | c => numberToText c

/-! ### Comparison -/

def isNull : Cell → Bool
  | .null => true
  | _ => false

def isText : Cell → Bool
  | .text _ => true
  | _ => false

def rank : Cell → Nat
  | .null => 0
  | .int _ => 1
  | .real _ => 1
  | .text _ => 2
  | .blob _ => 3

/-- Order values: nulls, numbers by value, texts by code point, bytes. -/
def order (a b : Cell) : Ordering :=
  match a, b with
  | .int i, .int j => Ord.compare i j
  | .int i, .real y => (y.compareInt i).swap
  | .real x, .int j => x.compareInt j
  | .real x, .real y => x.compare y
  | .text s, .text t => if s == t then .eq else if s < t then .lt else .gt
  | .blob s, .blob t => compareOfLessAndEq (s.map UInt8.toNat) (t.map UInt8.toNat)
  | a, b => Ord.compare a.rank b.rank

def same (a b : Cell) : Bool := order a b == .eq

/-- Convert both sides of a comparison. Texts become numbers next to a numeric column; numbers
become texts next to a text column if the other side is a text. -/
def meet (a : Affinity) (x y : Cell) : Cell × Cell :=
  if a.isNumeric then (textToNumber x, textToNumber y)
  else if a == .text && (x.isText || y.isText) then (numberToText x, numberToText y)
  else (x, y)

end Cell

namespace Affinity

/-- The affinity of a comparison: of two columns a numeric one counts, and otherwise values are
taken as they are; if one side is a column, its affinity counts. -/
def ofComparison (a b : Affinity) : Affinity :=
  if a == .none then b
  else if b == .none then a
  else if a.isNumeric || b.isNumeric then .numeric
  else .blob

end Affinity

end RowPolicy
