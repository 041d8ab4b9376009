import RowPolicy.Number.Binary64
import RowPolicy.Number.Digits

/-!
# Decimal text

Reads a decimal number, with a fraction and an exponent if there are any, as the nearest
floating-point number. Infinity and NaN have names, in either case.
-/

namespace RowPolicy.Binary64

def splitSign : List Char → Bool × List Char
  | '-' :: cs => (true, cs)
  | '+' :: cs => (false, cs)
  | cs => (false, cs)

/-- Read an exponent: nothing, or a mark, a sign and digits up to the end. -/
def readExponent : List Char → Option Int
  | [] => some 0
  | c :: cs =>
    if c == 'e' || c == 'E' then
      let (down, ds) := splitSign cs
      if ds.isEmpty || !ds.all Char.isDigit then none
      else
        let n : Int := Number.ofDigits ds
        some (if down then -n else n)
    else none

/-- Read digits with a point and an exponent. -/
def readMagnitude (negative : Bool) (cs : List Char) : Option Binary64 :=
  let whole := cs.takeWhile Char.isDigit
  let rest := cs.dropWhile Char.isDigit
  let (fraction, rest) := match rest with
    | '.' :: more => (more.takeWhile Char.isDigit, more.dropWhile Char.isDigit)
    | _ => ([], rest)
  if whole.isEmpty && fraction.isEmpty then none
  else
    (readExponent rest).map fun e =>
      ofDecimal negative (Number.ofDigits (whole ++ fraction)) (e - fraction.length)

def parse? (s : String) : Option Binary64 :=
  let (negative, cs) := splitSign s.toList
  let name := String.ofList (cs.map Char.toLower)
  if name == "inf" || name == "infinity" then some (infinity negative)
  else if name == "nan" then some nan
  else readMagnitude negative cs

end RowPolicy.Binary64
