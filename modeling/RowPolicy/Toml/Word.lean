import RowPolicy.Number.Decimal
import RowPolicy.Stamp.Instant
import RowPolicy.Toml.Item
import RowPolicy.Toml.Text

/-!
# TOML words

A value that is neither a text nor a collection is one word: a truth value, a number, a date, a
time, or both with the letter T or a blank between them.
-/

namespace RowPolicy.Toml

/-! ### Numbers -/

/-- Whether digits are separated by single underscores at most. -/
def isRun (isDigit : Char → Bool) : List Char → Bool
  | [] => false
  | [c] => isDigit c
  | c :: '_' :: rest => isDigit c && isRun isDigit rest
  | c :: rest => isDigit c && isRun isDigit rest

def withoutUnderscores (cs : List Char) : List Char := cs.filter (· != '_')

/-- Whether digits make a decimal number without a leading zero. -/
def isDecimal (cs : List Char) : Bool :=
  isRun Char.isDigit cs && (cs.length == 1 || cs.head? != some '0')

def signed (cs : List Char) : Bool × List Char :=
  match cs with
  | '-' :: rest => (true, rest)
  | '+' :: rest => (false, rest)
  | cs => (false, cs)

def basedNat (base : Nat) (cs : List Char) : Option Nat :=
  let isDigit c := (hexValue? c).any (· < base)
  if isRun isDigit cs then
    (withoutUnderscores cs).foldlM (fun n c => (hexValue? c).map (base * n + ·)) 0
  else none

def integer? (cs : List Char) : Option Int := do
  let i ← match cs with
    | '0' :: 'x' :: ds => (basedNat 16 ds).map Int.ofNat
    | '0' :: 'o' :: ds => (basedNat 8 ds).map Int.ofNat
    | '0' :: 'b' :: ds => (basedNat 2 ds).map Int.ofNat
    | _ =>
      let (negative, ds) := signed cs
      if isDecimal ds then
        let n : Int := Number.ofDigits (withoutUnderscores ds)
        some (if negative then -n else n)
      else none
  if Number.isInt64 i then some i else none

def isExponent (cs : List Char) : Bool := isRun Char.isDigit (signed cs).2

def isRealTail (cs : List Char) : Bool :=
  let isMark (c : Char) : Bool := c == 'e' || c == 'E'
  match cs with
  | '.' :: rest =>
    isRun Char.isDigit (rest.takeWhile (!isMark ·)) &&
      (match rest.dropWhile (!isMark ·) with
        | [] => true
        | _ :: e => isExponent e)
  | c :: rest => isMark c && isExponent rest
  | [] => false

/-- The real of a word. One that is too great is refused. -/
def real? (cs : List Char) : Option Binary64 :=
  let (negative, ds) := signed cs
  if ds == ['i', 'n', 'f'] then some (Binary64.infinity negative)
  else if ds == ['n', 'a', 'n'] then some Binary64.nan
  else
    let isWhole (c : Char) : Bool := c.isDigit || c == '_'
    if isDecimal (ds.takeWhile isWhole) && isRealTail (ds.dropWhile isWhole) then do
      let x ← Binary64.parse? (String.ofList (withoutUnderscores cs))
      if x.isFinite || x.isNegative then some x else none
    else none

/-! ### Dates and times -/

/-- The number of two digits, up to a bound. -/
def pairUpTo (greatest : Nat) (a b : Char) : Option Nat :=
  let n := Number.ofDigits [a, b]
  if a.isDigit && b.isDigit && n ≤ greatest then some n else none

def dropDate? : List Char → Option (List Char)
  | a :: b :: c :: d :: '-' :: e :: f :: '-' :: g :: h :: rest => do
    let month ← pairUpTo 12 e f
    let day ← pairUpTo 31 g h
    let year := Number.ofDigits [a, b, c, d]
    if [a, b, c, d].all Char.isDigit && 1 ≤ month && 1 ≤ day
        && day ≤ CivilDate.daysInMonth year month then some rest
    else none
  | _ => none

/-- The characters behind the fraction of a second. -/
def dropFraction? (cs : List Char) : Option (List Char) :=
  match cs with
  | '.' :: rest =>
    if (rest.head?).any Char.isDigit then some (rest.dropWhile Char.isDigit) else none
  | cs => some cs

def dropTime? : List Char → Option (List Char)
  | a :: b :: ':' :: c :: d :: ':' :: e :: f :: rest => do
    let _ ← pairUpTo 23 a b
    let _ ← pairUpTo 59 c d
    let _ ← pairUpTo 60 e f
    dropFraction? rest
  | _ => none

def isOffset : List Char → Bool
  | [] => true
  | ['Z'] => true
  | ['z'] => true
  | [s, a, b, ':', c, d] =>
    (s == '+' || s == '-') && (pairUpTo 23 a b).isSome && (pairUpTo 59 c d).isSome
  | _ => false

def isZonedTime (cs : List Char) : Bool := (dropTime? cs).any isOffset

def isDate (cs : List Char) : Bool := dropDate? cs == some []

def isMoment (cs : List Char) : Bool :=
  dropTime? cs == some [] ||
    (match dropDate? cs with
      | some [] => true
      | some (t :: rest) => (t == 'T' || t == 't') && isZonedTime rest
      | none => false)

/-! ### Words -/

def endsWord (c : Char) : Bool :=
  isBlank c || ['\n', '\r', '#', ',', ']', '\x7d'].contains c

def wordValue? (cs : List Char) : Option Item :=
  if cs == "true".toList then some (.truth true)
  else if cs == "false".toList then some (.truth false)
  else if isMoment cs then some (.moment (String.ofList cs))
  else
    match real? cs, integer? cs with
    | some x, _ => some (.real x)
    | none, some i => some (.integer i)
    | none, none => none

/-- Read a word. A time may follow a date behind a blank. -/
def word (cs : List Char) : Option (Item × List Char) :=
  let first := cs.takeWhile (!endsWord ·)
  let rest := cs.dropWhile (!endsWord ·)
  match rest with
  | ' ' :: more =>
    let second := more.takeWhile (!endsWord ·)
    if isDate first && isZonedTime second then
      some (.moment (String.ofList (first ++ ' ' :: second)), more.dropWhile (!endsWord ·))
    else (wordValue? first).map fun item => (item, rest)
  | _ => (wordValue? first).map fun item => (item, rest)

end RowPolicy.Toml
