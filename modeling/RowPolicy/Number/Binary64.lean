/-!
# Binary floating point

A 64-bit binary floating-point number is kept as its bit pattern. A finite number is
`±significand · 2 ^ scale`; every operation is exact arithmetic on that form followed by one
rounding to nearest, ties to even.
-/

namespace RowPolicy

structure Binary64 where
  bits : UInt64
  deriving DecidableEq, Repr, Inhabited

namespace Binary64

/-! ### Fields -/

def isNegative (x : Binary64) : Bool := Nat.pow 2 63 ≤ x.bits.toNat

def exponentField (x : Binary64) : Nat := x.bits.toNat / Nat.pow 2 52 % 2048

def fractionField (x : Binary64) : Nat := x.bits.toNat % Nat.pow 2 52

def isFinite (x : Binary64) : Bool := x.exponentField != 2047

def isNaN (x : Binary64) : Bool := x.exponentField == 2047 && x.fractionField != 0

def isZero (x : Binary64) : Bool := x.exponentField == 0 && x.fractionField == 0

def significand (x : Binary64) : Nat :=
  if x.exponentField == 0 then x.fractionField else Nat.pow 2 52 + x.fractionField

/-- The power of two that scales the significand of a finite number. -/
def scale (x : Binary64) : Int :=
  if x.exponentField == 0 then -1074 else x.exponentField - 1075

def ofFields (negative : Bool) (exponent fraction : Nat) : Binary64 :=
  ⟨UInt64.ofNat ((if negative then Nat.pow 2 63 else 0) + exponent * Nat.pow 2 52 + fraction)⟩

def zero (negative : Bool) : Binary64 := ofFields negative 0 0

def infinity (negative : Bool) : Binary64 := ofFields negative 2047 0

def nan : Binary64 := ofFields false 2047 (Nat.pow 2 51)

def neg (x : Binary64) : Binary64 := ofFields (!x.isNegative) x.exponentField x.fractionField

/-! ### Rounding -/

/-- The quotient of `num` by `den · 2 ^ q`, as a numerator and a denominator. -/
def scaled (num den : Nat) (q : Int) : Nat × Nat :=
  if q < 0 then (num * Nat.pow 2 q.natAbs, den) else (num, den * Nat.pow 2 q.natAbs)

/-- The nearest natural number to `n / d`, ties to even. -/
def roundEven (n d : Nat) : Nat :=
  let m := n / d
  let twice := 2 * (n % d)
  if twice < d then m else if d < twice then m + 1 else m + m % 2

/-- The scale at which the quotient `num / den` has a 53-bit significand, but at least the least
scale. -/
def scaleFor (num den : Nat) : Int :=
  let q : Int := (Nat.log2 num : Int) - Nat.log2 den - 53
  let (n, d) := scaled num den q
  max (if n / d < Nat.pow 2 53 then q else q + 1) (-1074)

/-- Encode `m · 2 ^ q` for `m ≤ 2 ^ 53`, overflowing to infinity. -/
def encode (negative : Bool) (m : Nat) (q : Int) : Binary64 :=
  let (m, q) := if m == Nat.pow 2 53 then (Nat.pow 2 52, q + 1) else (m, q)
  if m < Nat.pow 2 52 then ofFields negative 0 m
  else if 971 < q then infinity negative
  else ofFields negative (q + 1075).toNat (m - Nat.pow 2 52)

/-- The number nearest to `± num / den`, ties to even. -/
def ofRatio (negative : Bool) (num den : Nat) : Binary64 :=
  if num == 0 then zero negative
  else
    let q := scaleFor num den
    let (n, d) := scaled num den q
    encode negative (roundEven n d) q

def ofInt (i : Int) : Binary64 := ofRatio (i < 0) i.natAbs 1

/-- The magnitude of a finite number as a ratio. -/
def ratio (x : Binary64) : Nat × Nat :=
  if x.scale < 0 then (x.significand, Nat.pow 2 x.scale.natAbs)
  else (x.significand * Nat.pow 2 x.scale.natAbs, 1)

def mul (x y : Binary64) : Binary64 :=
  ofRatio (x.isNegative != y.isNegative) (x.ratio.1 * y.ratio.1) (x.ratio.2 * y.ratio.2)

/-- The rounded quotient of two finite numbers, the second not zero. -/
def div (x y : Binary64) : Binary64 :=
  ofRatio (x.isNegative != y.isNegative) (x.ratio.1 * y.ratio.2) (x.ratio.2 * y.ratio.1)

/-- The number nearest to `± significand · 10 ^ exponent`. Exponents that decide the result by
themselves are not expanded. -/
def ofDecimal (negative : Bool) (significand : Nat) (exponent : Int) : Binary64 :=
  if significand == 0 then zero negative
  else
    let magnitude : Int := (Nat.log2 significand : Int) / 4 + exponent
    if 400 < magnitude then infinity negative
    else if (Nat.log2 significand : Int) + exponent < -400 then zero negative
    else if exponent < 0 then ofRatio negative significand (Nat.pow 10 exponent.natAbs)
    else ofRatio negative (significand * Nat.pow 10 exponent.natAbs) 1

/-! ### Order -/

/-- The finite number as a signed ratio. -/
def signedRatio (x : Binary64) : Int × Nat :=
  (if x.isNegative then -x.ratio.1 else x.ratio.1, x.ratio.2)

/-- Order numbers that are not NaN by value. -/
def compare (x y : Binary64) : Ordering :=
  if !x.isFinite then
    if !y.isFinite && x.isNegative == y.isNegative then .eq
    else if x.isNegative then .lt else .gt
  else if !y.isFinite then if y.isNegative then .gt else .lt
  else
    Ord.compare (x.signedRatio.1 * y.signedRatio.2) (y.signedRatio.1 * x.signedRatio.2)

def compareInt (x : Binary64) (i : Int) : Ordering :=
  if !x.isFinite then if x.isNegative then .lt else .gt
  else Ord.compare x.signedRatio.1 (i * x.signedRatio.2)

def toInt? (x : Binary64) : Option Int :=
  if !x.isFinite then none
  else
    let (n, d) := x.signedRatio
    if n % d == 0 then some (n / d) else none

end Binary64

end RowPolicy
