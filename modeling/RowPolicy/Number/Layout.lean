import RowPolicy.Number.Shortest

/-!
# Number text

Three ways to write a floating-point number: positionally without ever using an exponent, as a
JSON number, and as the text a database gives a stored real.
-/

namespace RowPolicy

/-- How the digits of a number are laid out. -/
structure NumberLayout where
  /-- The least exponent of the leading digit that is written positionally. -/
  least : Int
  /-- The greatest exponent of the leading digit that is written positionally. -/
  greatest : Int
  /-- Whether a number without a fraction is written with `.0`. -/
  pointZero : Bool
  /-- Whether a single digit before an exponent is followed by `.0`. -/
  pointZeroBeforeExponent : Bool
  /-- The least number of exponent digits. -/
  exponentDigits : Nat

namespace NumberLayout

/-- JSON numbers: positional from `1e-5` up to, not including, `1e16`. -/
def json : NumberLayout := ⟨-5, 15, true, false, 1⟩

/-- The text of a stored real: positional from `1e-4` up to, not including, `1e15`. -/
def stored : NumberLayout := ⟨-4, 14, true, true, 2⟩

/-- The digits with the decimal point after the digit of exponent zero. -/
def positional (pointZero : Bool) (d : Decimal) : List Char :=
  let ds := Number.digits d.coefficient
  if 0 ≤ d.exponent then
    ds ++ List.replicate d.exponent.toNat '0' ++ (if pointZero then ['.', '0'] else [])
  else
    let places := d.exponent.natAbs
    if places < ds.length then
      ds.take (ds.length - places) ++ '.' :: ds.drop (ds.length - places)
    else '0' :: '.' :: (List.replicate (places - ds.length) '0' ++ ds)

def exponentChars (width : Nat) (e : Int) : List Char :=
  let ds := Number.digits e.natAbs
  (if e < 0 then '-' else '+') :: (List.replicate (width - ds.length) '0' ++ ds)

/-- The digits with the point after the first and the exponent behind. -/
def scientific (layout : NumberLayout) (d : Decimal) : List Char :=
  let mantissa := match Number.digits d.coefficient with
    | [] => []
    | [c] => if layout.pointZeroBeforeExponent then [c, '.', '0'] else [c]
    | c :: cs => c :: '.' :: cs
  mantissa ++ 'e' :: exponentChars layout.exponentDigits d.leading

def chars (layout : NumberLayout) (d : Decimal) : List Char :=
  if d.coefficient == 0 || (layout.least ≤ d.leading && d.leading ≤ layout.greatest) then
    positional layout.pointZero d
  else layout.scientific d

end NumberLayout

namespace Binary64

def signed (negative : Bool) (cs : List Char) : String :=
  String.ofList (if negative then '-' :: cs else cs)

def specialText (x : Binary64) : String :=
  if x.isNaN then "NaN" else if x.isNegative then "-inf" else "inf"

/-- The shortest digits written positionally: `2.0` is `2`, and no exponent is ever used. -/
def plainText (x : Binary64) : String :=
  if !x.isFinite then x.specialText
  else signed x.isNegative (NumberLayout.positional false x.shortest)

/-- The shortest digits as a JSON number. -/
def jsonText (x : Binary64) : String :=
  if !x.isFinite then x.specialText
  else signed x.isNegative (NumberLayout.json.chars x.shortest)

/-- The text a database gives the number: fifteen significant digits, and zero has no sign. -/
def storedText (x : Binary64) : String :=
  if !x.isFinite then if x.isNegative then "-Inf" else "Inf"
  else signed (x.isNegative && !x.isZero) (NumberLayout.stored.chars (x.significantDigits 15))

end Binary64

end RowPolicy
