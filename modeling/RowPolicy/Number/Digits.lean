/-!
# Decimal digits

Natural numbers and integers as decimal text, and back.
-/

namespace RowPolicy.Number

def digitChar (d : Nat) : Char := Char.ofNat (48 + d)

def digitValue (c : Char) : Nat := c.toNat - 48

def digits (n : Nat) : List Char :=
  if n < 10 then [digitChar n] else digits (n / 10) ++ [digitChar (n % 10)]

def ofDigits (cs : List Char) : Nat := cs.foldl (fun n c => 10 * n + digitValue c) 0

def natText (n : Nat) : String := String.ofList (digits n)

def intChars : Int → List Char
  | .ofNat n => digits n
  | .negSucc n => '-' :: digits (n + 1)

def intText (i : Int) : String := String.ofList (intChars i)

def minInt64 : Int := -9223372036854775808

def maxInt64 : Int := 9223372036854775807

def maxUInt64 : Int := 18446744073709551615

def isInt64 (i : Int) : Bool := minInt64 ≤ i && i ≤ maxInt64

end RowPolicy.Number
