import RowPolicy.Json.Decode
import RowPolicy.Number.Decimal

/-!
# Values of YAML scalars

A plain scalar may stand for null, a truth value or a number; any other scalar is a text unless its
tag says what it is. Digits behind a leading zero are a text.
-/

namespace RowPolicy.Yaml

/-! ### Plain scalars -/

def isNullText (s : String) : Bool := ["null", "Null", "NULL", "~"].contains s

def boolOf? : String → Option Bool
  | "true" => some true
  | "True" => some true
  | "TRUE" => some true
  | "false" => some false
  | "False" => some false
  | "FALSE" => some false
  | _ => none

def digitOf? (c : Char) : Option Nat :=
  if c.isDigit then some (c.toNat - '0'.toNat)
  else if 'a' ≤ c && c ≤ 'z' then some (c.toNat - 'a'.toNat + 10)
  else if 'A' ≤ c && c ≤ 'Z' then some (c.toNat - 'A'.toNat + 10)
  else none

def natOf? (base : Nat) (cs : List Char) : Option Nat :=
  if cs.isEmpty then none
  else cs.foldlM (fun n c => do
    let d ← digitOf? c
    if d < base then some (base * n + d) else none) 0

def basedOf? (cs : List Char) : Option Nat :=
  match cs with
  | '0' :: 'x' :: ds => natOf? 16 ds
  | '0' :: 'o' :: ds => natOf? 8 ds
  | '0' :: 'b' :: ds => natOf? 2 ds
  | _ => none

/-- Whether a text consists of a sign and digits with a leading zero. -/
def isZeroPadded (cs : List Char) : Bool :=
  let cs := match cs with
    | '-' :: rest => rest
    | '+' :: rest => rest
    | cs => cs
  match cs with
  | '0' :: d :: ds => (d :: ds).all Char.isDigit
  | _ => false

/-- The magnitude of an integer with or without a mark of its base. -/
def magnitudeOf? (whole cs : List Char) : Option Nat :=
  match basedOf? cs with
  | some n => some n
  | none => if isZeroPadded whole then none else natOf? 10 cs

/-- The integer that a text stands for, if it has at most 128 bits. -/
def intOf? (s : String) : Option Int :=
  let cs := s.toList
  match cs with
  | '-' :: rest => do
    let n ← magnitudeOf? cs rest
    if n ≤ Nat.pow 2 127 then some (-(n : Int)) else none
  | '+' :: rest => do
    let n ← magnitudeOf? cs rest
    if n < Nat.pow 2 128 then some n else none
  | _ => do
    let n ← magnitudeOf? cs cs
    if n < Nat.pow 2 128 then some n else none

/-- Whether an integer fits 64 bits, with or without a sign. -/
def isNarrow (i : Int) : Bool := Number.minInt64 ≤ i && i ≤ Number.maxUInt64

/-- The text without a plus sign, unless another sign follows. -/
def withoutPlus? (s : String) : Option String :=
  match s.toList with
  | '+' :: '+' :: _ => none
  | '+' :: '-' :: _ => none
  | '+' :: rest => some (String.ofList rest)
  | _ => some s

/-- The real that a text stands for; an infinite one must be written as such. -/
def realOf? (s : String) : Option Binary64 := do
  let t ← withoutPlus? s
  if [".inf", ".Inf", ".INF"].contains t then some (Binary64.infinity false)
  else if ["-.inf", "-.Inf", "-.INF"].contains s then some (Binary64.infinity true)
  else if [".nan", ".NaN", ".NAN"].contains s then some Binary64.nan
  else
    let x ← Binary64.parse? t
    if x.isFinite then some x else none

def plainValue (s : String) : Json :=
  if s.isEmpty || isNullText s then .null
  else
    match boolOf? s, intOf? s with
    | some b, _ => .bool b
    | none, some i => .int i
    | none, none =>
      match if isZeroPadded s.toList then none else realOf? s with
      | some x => .real x
      | none => .str s

/-! ### Tags -/

def isOwnTag (tag : Option String) : Bool := tag.any fun t => t.toList.head? == some '!'

def standardTag (name : String) : String := "tag:yaml.org,2002:" ++ name

/-- The value that a tag demands, or what is expected. -/
def demanded {α : Type} (text expected : String) (f : α → Json) (value : Option α) :
    Json.Decoded Json :=
  match value with
  | some a => .ok (f a)
  | none => .error (.invalidValue (.str text) expected)

def scalarValue (text : String) (plain : Bool) (tag : Option String) : Json.Decoded Json :=
  match tag with
  | none => .ok (if plain then plainValue text else .str text)
  | some t =>
    if t == standardTag "bool" then demanded text "a boolean" .bool (boolOf? text)
    else if t == standardTag "int" then demanded text "an integer" .int (intOf? text)
    else if t == standardTag "float" then demanded text "a float" .real (realOf? text)
    else if t == standardTag "null" then
      demanded text "null" (fun _ => .null) (if isNullText text then some () else none)
    else .ok (if plain && isOwnTag tag then plainValue text else .str text)

end RowPolicy.Yaml
