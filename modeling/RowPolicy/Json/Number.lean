import RowPolicy.Json.Fault
import RowPolicy.Json.Value
import RowPolicy.Number.Digits

/-!
# JSON numbers

A number without fraction and exponent is an integer if it fits in 64 bits (`-0` does not count as
one). Every other number is a real: the digits are gathered into a 64-bit significand, those that
do not fit only count towards the exponent, and the significand is then multiplied or divided by a
power of ten, each step rounded.
-/

namespace RowPolicy.Json

/-- The parts of a number as written. -/
structure Numeral where
  negative : Bool
  whole : List Char
  fraction : Option (List Char)
  exponent : Option (Bool × List Char)
  deriving Repr, Inhabited

namespace Numeral

def maxSignificand : Nat := 18446744073709551615

/-- Gather digits while they fit; the result counts the digits that did not. -/
def gatherWhole (significand : Nat) : List Char → Nat × Nat
  | [] => (significand, 0)
  | c :: cs =>
    let next := significand * 10 + Number.digitValue c
    if maxSignificand < next then (significand, (c :: cs).length) else gatherWhole next cs

/-- Gather fraction digits while they fit; the result counts those gathered. -/
def gatherFraction (significand : Nat) : List Char → Nat × Nat
  | [] => (significand, 0)
  | c :: cs =>
    let next := significand * 10 + Number.digitValue c
    if maxSignificand < next then (significand, 0)
    else
      let (total, count) := gatherFraction next cs
      (total, count + 1)

def powerOfTen (k : Nat) : Binary64 := Binary64.ofDecimal false 1 k

/-- Divide by a power of ten, by `10 ^ 308` at a time. -/
def divideByTens : Nat → Binary64 → Nat → Binary64
  | 0, _, _ => Binary64.zero false
  | fuel + 1, f, k =>
    if k ≤ 308 then f.div (powerOfTen k)
    else if f.isZero then f
    else divideByTens fuel (f.div (powerOfTen 308)) (k - 308)

def scale (significand : Nat) (exponent : Int) : Except JsonFault Binary64 :=
  let f := Binary64.ofInt significand
  if exponent < 0 then .ok (divideByTens 4 f exponent.natAbs)
  else if 308 < exponent then if f.isZero then .ok f else .error .numberOutOfRange
  else
    let product := f.mul (powerOfTen exponent.toNat)
    if product.isFinite then .ok product else .error .numberOutOfRange

def realValue (n : Numeral) : Except JsonFault Binary64 := do
  let (whole, dropped) := gatherWhole 0 n.whole
  let (significand, places) := gatherFraction whole (n.fraction.getD [])
  let exponent : Int := (dropped : Int) - places
  let magnitude ← match n.exponent with
    | none => scale significand exponent
    | some (down, digits) =>
      let e := Number.ofDigits digits
      if 2147483647 < e then
        if significand != 0 && !down then throw .numberOutOfRange
        else pure (Binary64.zero false)
      else scale significand (if down then exponent - e else exponent + e)
  pure (if n.negative then magnitude.neg else magnitude)

def intValue? (n : Numeral) : Option Int :=
  match n.fraction, n.exponent with
  | none, none =>
    let m := Number.ofDigits n.whole
    if n.negative then
      if m != 0 && (m : Int) ≤ -Number.minInt64 then some (-(m : Int)) else none
    else if (m : Int) ≤ Number.maxUInt64 then some m else none
  | _, _ => none

def value (n : Numeral) : Except JsonFault Json :=
  match n.intValue? with
  | some i => .ok (.int i)
  | none => n.realValue.map .real

end Numeral

end RowPolicy.Json
