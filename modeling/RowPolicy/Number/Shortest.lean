import RowPolicy.Number.Binary64
import RowPolicy.Number.Digits

/-!
# Shortest decimals

The shortest decimal that reads back as a given floating-point number, and the nearest decimal
with a given number of digits. A decimal is a coefficient without trailing zeros and a power of
ten.
-/

namespace RowPolicy

/-- A decimal `coefficient · 10 ^ exponent`. -/
structure Decimal where
  coefficient : Nat
  exponent : Int
  deriving DecidableEq, Repr, Inhabited

namespace Decimal

/-- Move trailing zeros of the coefficient into the exponent, at most `fuel` of them. -/
def stripZeros : Nat → Decimal → Decimal
  | 0, d => d
  | fuel + 1, d =>
    if d.coefficient != 0 && d.coefficient % 10 == 0 then
      stripZeros fuel ⟨d.coefficient / 10, d.exponent + 1⟩
    else d

def normalize (d : Decimal) : Decimal := stripZeros d.coefficient.log2 d

def leading (d : Decimal) : Int := d.exponent + (Number.digits d.coefficient).length - 1

end Decimal

namespace Binary64

/-- The least `k`, searched from `k` on, with `den ≤ num · 10 ^ k`. -/
def tensBelow (num den : Nat) : Nat → Nat → Nat
  | 0, k => k
  | fuel + 1, k => if den ≤ num * Nat.pow 10 k then k else tensBelow num den fuel (k + 1)

/-- The exponent of the leading decimal digit of a positive ratio. -/
def leadingExponent (num den : Nat) : Int :=
  if den ≤ num then (Number.digits (num / den)).length - 1
  else -(tensBelow num den 400 1 : Int)

def perTen (num den : Nat) (e : Int) : Nat × Nat :=
  if e < 0 then (num * Nat.pow 10 e.natAbs, den) else (num, den * Nat.pow 10 e.natAbs)

/-- The ends of the interval of reals that round to `x`, as multiples of `2 ^ (scale - 2)`. -/
def interval (x : Binary64) : Nat × Nat :=
  let m := x.significand
  let lower := if m == Nat.pow 2 52 && x.scale != -1074 then 4 * m - 1 else 4 * m - 2
  (lower, 4 * m + 2)

/-- Whether `c · 10 ^ e` lies in the interval of reals that round to `x`. -/
def readsBack (x : Binary64) (c : Nat) (e : Int) : Bool :=
  let (lower, upper) := x.interval
  let closed := x.significand % 2 == 0
  -- Compare `c · 10 ^ e` with `bound · 2 ^ (scale - 2)` over a common denominator.
  let q := x.scale - 2
  let two := Nat.pow 2 q.natAbs
  let ten := Nat.pow 10 e.natAbs
  let left := (if e < 0 then c else c * ten) * (if q < 0 then two else 1)
  let unit := (if q < 0 then 1 else two) * (if e < 0 then ten else 1)
  if closed then lower * unit ≤ left && left ≤ upper * unit
  else lower * unit < left && left < upper * unit

/-- The decimal with step `10 ^ e` nearest to `x` that reads back as `x`, if there is one. -/
def onGrid (x : Binary64) (e : Int) : Option Decimal :=
  let (n, d) := perTen x.ratio.1 x.ratio.2 e
  let below := n / d
  let low := x.readsBack below e
  let high := x.readsBack (below + 1) e
  let twice := 2 * (n % d)
  if low && (!high || twice < d || (twice == d && below % 2 == 0)) then some ⟨below, e⟩
  else if high then some ⟨below + 1, e⟩
  else none

/-- Search the grids with ever more digits, the first of them with step `10 ^ e`. -/
def shortestFrom (x : Binary64) : Nat → Int → Decimal
  | 0, e => (x.onGrid e).getD ⟨0, 0⟩
  | fuel + 1, e => (x.onGrid e).getD (shortestFrom x fuel (e - 1))

/-- The shortest decimal that reads back as the magnitude of a finite number, and of those the
nearest. -/
def shortest (x : Binary64) : Decimal :=
  if x.isZero then ⟨0, 0⟩
  else (shortestFrom x 17 (leadingExponent x.ratio.1 x.ratio.2)).normalize

/-- The magnitude of a finite number rounded to `count` significant digits, halves away from
zero. -/
def significantDigits (x : Binary64) (count : Nat) : Decimal :=
  if x.isZero then ⟨0, 0⟩
  else
    let e := leadingExponent x.ratio.1 x.ratio.2 - (count - 1)
    let (n, d) := perTen x.ratio.1 x.ratio.2 e
    Decimal.normalize ⟨(2 * n + d) / (2 * d), e⟩

end Binary64

end RowPolicy
