import RowPolicy.Number.Digits
import RowPolicy.Text.Blank

/-!
# Instants

A point in time on the UTC scale, in seconds since 1970 and nanoseconds. It is written as
`YYYY-MM-DDTHH:MM:SSZ` with 0, 3, 6 or 9 digits of a fraction, and read from that form with any
offset, with blanks between the parts, and with numbers that are not padded.
-/

namespace RowPolicy

/-- A point in time. A leap second is the second before it with a thousand million nanoseconds
more. -/
structure Instant where
  seconds : Int
  nanos : Nat
  deriving DecidableEq, Repr, Inhabited

inductive InstantError where
  | outOfRange
  | invalid
  | tooShort
  | tooLong
  deriving DecidableEq, Repr, Inhabited

def InstantError.message : InstantError → String
  | .outOfRange => "input is out of range"
  | .invalid => "input contains invalid characters"
  | .tooShort => "premature end of input"
  | .tooLong => "trailing input"

/-! ### The calendar -/

structure CivilDate where
  year : Int
  month : Nat
  day : Nat
  deriving DecidableEq, Repr, Inhabited

namespace CivilDate

def isLeapYear (year : Int) : Bool := year % 4 == 0 && (year % 100 != 0 || year % 400 == 0)

def daysInMonth (year : Int) (month : Nat) : Nat :=
  if month == 2 then if isLeapYear year then 29 else 28
  else if month == 4 || month == 6 || month == 9 || month == 11 then 30
  else 31

/-- Days since 1 January 1970. Years are counted from March, so that a leap day is the last day of
its year. -/
def toDays (d : CivilDate) : Int :=
  let year := if d.month ≤ 2 then d.year - 1 else d.year
  let era := year / 400
  let yearOfEra := year - era * 400
  let monthFromMarch : Int := if d.month ≤ 2 then d.month + 9 else d.month - 3
  let dayOfYear := (153 * monthFromMarch + 2) / 5 + d.day - 1
  let dayOfEra := yearOfEra * 365 + yearOfEra / 4 - yearOfEra / 100 + dayOfYear
  era * 146097 + dayOfEra - 719468

/-- The day that lies the given number of days after 1 January 1970. -/
def ofDays (days : Int) : CivilDate :=
  let z := days + 719468
  let era := z / 146097
  let dayOfEra := z - era * 146097
  let yearOfEra := (dayOfEra - dayOfEra / 1460 + dayOfEra / 36524 - dayOfEra / 146096) / 365
  let dayOfYear := dayOfEra - (365 * yearOfEra + yearOfEra / 4 - yearOfEra / 100)
  let monthFromMarch := (5 * dayOfYear + 2) / 153
  let day := dayOfYear - (153 * monthFromMarch + 2) / 5 + 1
  let month := if monthFromMarch < 10 then monthFromMarch + 3 else monthFromMarch - 9
  let year := yearOfEra + era * 400
  ⟨if month ≤ 2 then year + 1 else year, month.toNat, day.toNat⟩

end CivilDate

namespace Instant

/-! ### Writing -/

def padZero (width n : Nat) : String :=
  let ds := Number.digits n
  String.ofList (List.replicate (width - ds.length) '0' ++ ds)

/-- A year: four digits, or a sign and at least five if it has no four-digit form. -/
def yearText (year : Int) : String :=
  if 0 ≤ year && year ≤ 9999 then padZero 4 year.natAbs
  else (if year < 0 then "-" else "+") ++ padZero 4 year.natAbs

def fractionText (nanos : Nat) : String :=
  if nanos == 0 then ""
  else if nanos % 1000000 == 0 then "." ++ padZero 3 (nanos / 1000000)
  else if nanos % 1000 == 0 then "." ++ padZero 6 (nanos / 1000)
  else "." ++ padZero 9 nanos

def dateText (t : Instant) : String :=
  let d := CivilDate.ofDays (t.seconds / 86400)
  yearText d.year ++ "-" ++ padZero 2 d.month ++ "-" ++ padZero 2 d.day

def timeText (t : Instant) : String :=
  let s := (t.seconds % 86400).toNat
  let leap := if 1000000000 ≤ t.nanos then 1 else 0
  padZero 2 (s / 3600) ++ ":" ++ padZero 2 (s / 60 % 60) ++ ":" ++ padZero 2 (s % 60 + leap)

def text (t : Instant) : String :=
  t.dateText ++ "T" ++ t.timeText ++ fractionText (t.nanos % 1000000000) ++ "Z"

def listingText (t : Instant) : String := t.dateText ++ " " ++ t.timeText

/-! ### Reading -/

/-- Text still to be read. -/
abbrev Rest := List Char

def skipBlanks (cs : Rest) : Rest := cs.dropWhile Text.isBlank

/-- Read a number of at least one and at most `most` digits. -/
def readNumber (most : Nat) (cs : Rest) : Except InstantError (Nat × Rest) :=
  let ds := (cs.take most).takeWhile Char.isDigit
  if cs.isEmpty then .error .tooShort
  else if ds.isEmpty then .error .invalid
  else if Number.maxInt64.toNat < Number.ofDigits ds then .error .outOfRange
  else .ok (Number.ofDigits ds, cs.drop ds.length)

def readField (least greatest : Nat) (cs : Rest) : Except InstantError (Nat × Rest) := do
  let (n, rest) ← readNumber 2 (skipBlanks cs)
  if n < least || greatest < n then throw .outOfRange
  pure (n, rest)

/-- Read a separator, after blanks. -/
def readMark (mark : Char) (cs : Rest) : Except InstantError Rest :=
  match skipBlanks cs with
  | [] => .error .tooShort
  | c :: rest => if c == mark then .ok rest else .error .invalid

/-- Read a year: four digits, or any number of them after a sign. -/
def readYear (cs : Rest) : Except InstantError (Int × Rest) := do
  let (year, rest) ← match skipBlanks cs with
    | '-' :: more => do
      let (n, rest) ← readNumber more.length more
      pure (-(n : Int), rest)
    | '+' :: more => do
      let (n, rest) ← readNumber more.length more
      pure ((n : Int), rest)
    | more => do
      let (n, rest) ← readNumber 4 more
      pure ((n : Int), rest)
  if year < -2147483648 || 2147483647 < year then throw .outOfRange
  pure (year, rest)

/-- Read the fraction of a second, if there is one; digits beyond the ninth are dropped. -/
def readFraction (cs : Rest) : Except InstantError (Nat × Rest) :=
  match cs with
  | '.' :: more => do
    let (n, rest) ← readNumber 9 more
    let count := more.length - rest.length
    pure (n * Nat.pow 10 (9 - count), rest.dropWhile Char.isDigit)
  | _ => .ok (0, cs)

def readPair (cs : Rest) : Except InstantError (Nat × Rest) :=
  match cs with
  | a :: b :: rest =>
    if a.isDigit && b.isDigit then .ok (Number.ofDigits [a, b], rest) else .error .invalid
  | _ => .error .tooShort

def readOffset (cs : Rest) : Except InstantError (Int × Rest) :=
  match cs with
  | [] => .error .tooShort
  | c :: rest =>
    if c == 'Z' || c == 'z' then .ok (0, rest)
    else if c == '+' || c == '-' || c == '−' then do
      let (hours, rest) ← readPair rest
      let (minutes, rest) ← readPair (rest.dropWhile fun d => d == ':' || Text.isBlank d)
      if 60 ≤ minutes then throw .outOfRange
      let seconds : Int := hours * 3600 + minutes * 60
      pure (if c == '+' then seconds else -seconds, rest)
    else .error .invalid

/-- Read the zone: the letters UTC, or an offset. -/
def readZone (cs : Rest) : Except InstantError (Int × Rest) :=
  if (cs.take 3).map Char.toUpper == ['U', 'T', 'C'] then .ok (0, cs.drop 3) else readOffset cs

def parse (s : String) : Except InstantError Instant := do
  let (year, rest) ← readYear s.toList
  let rest ← readMark '-' rest
  let (month, rest) ← readField 1 12 rest
  let rest ← readMark '-' rest
  let (day, rest) ← readField 1 31 rest
  let rest ← match rest with
    | [] => throw .tooShort
    | c :: more => if c == 'T' || c == 't' || c == ' ' then pure more else throw .invalid
  let (hour, rest) ← readField 0 23 rest
  let rest ← readMark ':' rest
  let (minute, rest) ← readField 0 59 rest
  let rest ← readMark ':' rest
  let (second, rest) ← readField 0 60 rest
  let (nanos, rest) ← readFraction rest
  let (offset, rest) ← readZone (skipBlanks rest)
  if !(skipBlanks rest).isEmpty then throw .tooLong
  if 86400 ≤ offset.natAbs then throw .outOfRange
  if year.natAbs > 262142 then throw .outOfRange
  if CivilDate.daysInMonth year month < day then throw .outOfRange
  let leap := second == 60
  let timeOfDay : Int := hour * 3600 + minute * 60 + (if leap then 59 else second)
  let seconds := (CivilDate.toDays ⟨year, month, day⟩) * 86400 + timeOfDay - offset
  pure ⟨seconds, if leap then nanos + 1000000000 else nanos⟩

end Instant

end RowPolicy
