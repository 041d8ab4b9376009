import RowPolicy.Json.Token

/-!
# SQL tokens

Blanks and comments separate tokens and are dropped. A quoted name or text ends at the first quote
that is not doubled, a doubled quote standing for one. A line comment ends at the end of the line,
a block comment at `*/` or the end of the text.
-/

namespace RowPolicy.Sql

inductive Token where
  /-- A bare name or keyword. -/
  | word (s : String)
  /-- A quoted name; only double quotes may turn out to enclose a text. -/
  | name (s : String) (doubleQuoted : Bool)
  | text (s : String)
  | bytes (bs : List UInt8)
  | int (digits : String)
  /-- A number with a point or an exponent. -/
  | real (text : String)
  /-- A parameter, with its number if it has one. -/
  | param (number : Option Nat)
  | symbol (s : String)
  /-- Characters that form no token. -/
  | illegal
  deriving DecidableEq, Repr, Inhabited

/-- A token and where it starts and ends in its text. -/
structure Lexeme where
  token : Token
  start : Nat
  stop : Nat
  deriving DecidableEq, Repr, Inhabited

/-! ### Character classes -/

def isSpace (c : Char) : Bool :=
  c == ' ' || c == '\t' || c == '\n' || c == '\r' || c.toNat == 12 || c.toNat == 0xFEFF

def isWordChar (c : Char) : Bool :=
  c.isAlphanum || c == '_' || c == '$' || (0x80 ≤ c.toNat && c.toNat != 0xFEFF)

def isWordStart (c : Char) : Bool := isWordChar c && !c.isDigit && c != '$'

/-! ### Scanners -/

/-- The characters up to the closing quote and what follows; `none` without a closing quote. -/
def readQuoted (quote : Char) : List Char → Option (List Char × List Char)
  | [] => none
  | c :: cs =>
    if c == quote then
      match cs with
      | d :: ds =>
        if d == quote then (readQuoted quote ds).map fun (inner, rest) => (quote :: inner, rest)
        else some ([], cs)
      | [] => some ([], [])
    else (readQuoted quote cs).map fun (inner, rest) => (c :: inner, rest)

def afterBlock : List Char → List Char
  | [] => []
  | '*' :: '/' :: rest => rest
  | _ :: rest => afterBlock rest

/-- The bytes written by pairs of hexadecimal digits. -/
def readBytes : List Char → Option (List UInt8)
  | [] => some []
  | [_] => none
  | a :: b :: rest =>
    match Json.hexValue? a, Json.hexValue? b, readBytes rest with
    | some x, some y, some bs => some (UInt8.ofNat (16 * x + y) :: bs)
    | _, _, _ => none

/-- The exponent of a number, if one starts here. -/
def readExponent (cs : List Char) : List Char × List Char :=
  match cs with
  | e :: rest =>
    if e == 'e' || e == 'E' then
      match rest with
      | s :: more =>
        if s.isDigit then (e :: rest.takeWhile Char.isDigit, rest.dropWhile Char.isDigit)
        else if (s == '+' || s == '-') && (more.head?.map Char.isDigit).getD false then
          (e :: s :: more.takeWhile Char.isDigit, more.dropWhile Char.isDigit)
        else ([], cs)
      | [] => ([], cs)
    else ([], cs)
  | [] => ([], [])

/-- A number that starts with a digit or a point. A name right behind it makes it illegal. -/
def readNumber (cs : List Char) : Token × List Char :=
  let whole := cs.takeWhile Char.isDigit
  let rest := cs.dropWhile Char.isDigit
  let (fraction, rest) := match rest with
    | '.' :: more => ('.' :: more.takeWhile Char.isDigit, more.dropWhile Char.isDigit)
    | _ => ([], rest)
  let (exponent, rest) := readExponent rest
  let token := if fraction.isEmpty && exponent.isEmpty then Token.int (String.ofList whole)
    else Token.real (String.ofList (whole ++ fraction ++ exponent))
  match rest with
  | c :: _ => if isWordChar c then (.illegal, rest.dropWhile isWordChar) else (token, rest)
  | [] => (token, rest)

def pairs : List (Char × Char) :=
  [('<', '='), ('>', '='), ('<', '>'), ('!', '='), ('=', '='), ('|', '|'), ('<', '<'), ('>', '>')]

def marks : List Char :=
  ['(', ')', ',', '.', ';', '=', '<', '>', '+', '-', '*', '/', '%', '&', '|', '~']

def readSymbol (c : Char) (cs : List Char) : Token × List Char :=
  match cs with
  | d :: rest =>
    if pairs.contains (c, d) then (.symbol (String.ofList [c, d]), rest)
    else if marks.contains c then (.symbol (String.ofList [c]), cs)
    else (.illegal, cs)
  | [] => if marks.contains c then (.symbol (String.ofList [c]), cs) else (.illegal, cs)

/-- A token that starts with the character `c`, or nothing for a blank or a comment. -/
def readToken (c : Char) (cs : List Char) : Option Token × List Char :=
  if isSpace c then (none, cs)
  else if c == '-' && cs.head? == some '-' then (none, cs.dropWhile (· != '\n'))
  else if c == '/' && cs.head? == some '*' then (none, afterBlock (cs.drop 1))
  else if c == '\x27' then
    match readQuoted c cs with
    | some (inner, rest) => (some (.text (String.ofList inner)), rest)
    | none => (some .illegal, [])
  else if c == '"' || c.toNat == 96 then
    match readQuoted c cs with
    | some (inner, rest) => (some (.name (String.ofList inner) (c == '"')), rest)
    | none => (some .illegal, [])
  else if c == '[' then
    let inner := cs.takeWhile (· != ']')
    match cs.dropWhile (· != ']') with
    | _ :: rest => (some (.name (String.ofList inner) false), rest)
    | [] => (some .illegal, [])
  else if (c == 'x' || c == 'X') && cs.head? == some '\x27' then
    let inner := (cs.drop 1).takeWhile (· != '\x27')
    match (cs.drop 1).dropWhile (· != '\x27'), readBytes inner with
    | _ :: rest, some bs => (some (.bytes bs), rest)
    | _ :: rest, none => (some .illegal, rest)
    | [], _ => (some .illegal, [])
  else if isWordStart c then
    (some (.word (String.ofList (c :: cs.takeWhile isWordChar))), cs.dropWhile isWordChar)
  else if c.isDigit || (c == '.' && (cs.head?.map Char.isDigit).getD false) then
    let (token, rest) := readNumber (c :: cs)
    (some token, rest)
  else if c == '?' then
    let ds := cs.takeWhile Char.isDigit
    (some (.param (if ds.isEmpty then none else some (Number.ofDigits ds))),
      cs.dropWhile Char.isDigit)
  else
    let (token, rest) := readSymbol c cs
    (some token, rest)

/-- The tokens of a text of `total` characters whose rest is given, with as many steps as fuel. -/
def lexFrom (total : Nat) : Nat → List Char → List Lexeme
  | 0, _ => []
  | _, [] => []
  | fuel + 1, c :: cs =>
    match readToken c cs with
    | (none, rest) => lexFrom total fuel rest
    | (some token, rest) =>
      ⟨token, total - (cs.length + 1), total - rest.length⟩ :: lexFrom total fuel rest

/-- The tokens of a text. A null character ends it. -/
def lex (s : String) : List Lexeme :=
  let cs := s.toList.takeWhile (·.toNat != 0)
  lexFrom cs.length cs.length cs

end RowPolicy.Sql
