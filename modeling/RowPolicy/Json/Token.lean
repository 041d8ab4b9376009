import RowPolicy.Json.Number

/-!
# JSON tokens

A text is read one character at a time. The state says what has been started; every character
yields the tokens it completes and the next state. A malformed token is the last one of its text.
-/

namespace RowPolicy.Json

/-- A token. A malformed token records whether it began as a quoted text. -/
inductive Token where
  | null
  | bool (b : Bool)
  | number (j : Json)
  | str (s : String)
  | openArr
  | closeArr
  | openObj
  | closeObj
  | comma
  | colon
  | malformed (quoted : Bool) (fault : JsonFault)
  deriving Inhabited

/-! ### Quoted texts -/

/-- Where the reading of a quoted text stands. -/
inductive QuoteState where
  /-- Between characters. -/
  | plain
  | escape
  /-- Inside a hexadecimal escape: the high surrogate before it, the digits seen, their value. -/
  | hex (high : Option Nat) (seen : Nat) (value : Nat)
  | surrogate (high : Nat)
  /-- After a high surrogate and a backslash. -/
  | surrogateEscape (high : Nat)
  deriving Inhabited

def hexValue? (c : Char) : Option Nat :=
  if c.isDigit then some (c.toNat - 48)
  else if 'a' ≤ c && c ≤ 'f' then some (c.toNat - 87)
  else if 'A' ≤ c && c ≤ 'F' then some (c.toNat - 55)
  else none

def unescape? : Char → Option Char
  | '"' => some '"'
  | '\\' => some '\\'
  | '/' => some '/'
  | 'b' => some '\x08'
  | 'f' => some '\x0c'
  | 'n' => some '\n'
  | 'r' => some '\r'
  | 't' => some '\t'
  | _ => none

/-- What a completed hexadecimal escape stands for: a character, or the start of a pair. -/
def finishHex (high : Option Nat) (n : Nat) : Except JsonFault (Option Char × QuoteState) :=
  match high with
  | some h =>
    if 0xDC00 ≤ n && n ≤ 0xDFFF then
      .ok (some (Char.ofNat ((h - 0xD800) * 0x400 + (n - 0xDC00) + 0x10000)), .plain)
    else .error .loneSurrogate
  | none =>
    if 0xDC00 ≤ n && n ≤ 0xDFFF then .error .loneSurrogate
    else if 0xD800 ≤ n && n ≤ 0xDBFF then .ok (none, .surrogate n)
    else .ok (some (Char.ofNat n), .plain)

/-- The character, if any, that `c` completes inside a quoted text, and the next state. -/
def QuoteState.step (state : QuoteState) (c : Char) : Except JsonFault (Option Char × QuoteState) :=
  match state with
  | .plain =>
    if c == '\\' then .ok (none, .escape)
    else if c.toNat < 0x20 then .error .controlCharacter
    else .ok (some c, .plain)
  | .escape =>
    if c == 'u' then .ok (none, .hex none 0 0)
    else match unescape? c with
      | some d => .ok (some d, .plain)
      | none => .error .invalidEscape
  | .hex high seen value =>
    match hexValue? c with
    | none => .error .invalidEscape
    | some d =>
      if seen < 3 then .ok (none, .hex high (seen + 1) (value * 16 + d))
      else finishHex high (value * 16 + d)
  | .surrogate high =>
    if c == '\\' then .ok (none, .surrogateEscape high) else .error .endOfHexEscape
  | .surrogateEscape high =>
    if c == 'u' then .ok (none, .hex (some high) 0 0) else .error .endOfHexEscape

/-! ### Numbers -/

/-- Where the reading of a number stands. Digits are kept latest first. -/
inductive NumeralState where
  | minus
  | zero (negative : Bool)
  | whole (negative : Bool) (digits : List Char)
  | point (negative : Bool) (whole : List Char)
  | fraction (negative : Bool) (whole digits : List Char)
  | mark (negative : Bool) (whole : List Char) (fraction : Option (List Char))
  | sign (negative : Bool) (whole : List Char) (fraction : Option (List Char)) (down : Bool)
  | exponent (negative : Bool) (whole : List Char) (fraction : Option (List Char)) (down : Bool)
      (digits : List Char)
  deriving Inhabited

def isMark (c : Char) : Bool := c == 'e' || c == 'E'

/-- Extend a number by a character: the next state, `none` if the number ends before it. -/
def NumeralState.step (state : NumeralState) (c : Char) : Except JsonFault (Option NumeralState) :=
  match state with
  | .minus =>
    if c == '0' then .ok (some (.zero true))
    else if c.isDigit then .ok (some (.whole true [c]))
    else .error .invalidNumber
  | .zero negative =>
    if c.isDigit then .error .invalidNumber
    else if c == '.' then .ok (some (.point negative ['0']))
    else if isMark c then .ok (some (.mark negative ['0'] none))
    else .ok none
  | .whole negative digits =>
    if c.isDigit then .ok (some (.whole negative (c :: digits)))
    else if c == '.' then .ok (some (.point negative digits))
    else if isMark c then .ok (some (.mark negative digits none))
    else .ok none
  | .point negative w =>
    if c.isDigit then .ok (some (.fraction negative w [c])) else .error .invalidNumber
  | .fraction negative w digits =>
    if c.isDigit then .ok (some (.fraction negative w (c :: digits)))
    else if isMark c then .ok (some (.mark negative w (some digits)))
    else .ok none
  | .mark negative w f =>
    if c == '+' then .ok (some (.sign negative w f false))
    else if c == '-' then .ok (some (.sign negative w f true))
    else if c.isDigit then .ok (some (.exponent negative w f false [c]))
    else .error .invalidNumber
  | .sign negative w f down =>
    if c.isDigit then .ok (some (.exponent negative w f down [c]))
    else .error .invalidNumber
  | .exponent negative w f down digits =>
    if c.isDigit then .ok (some (.exponent negative w f down (c :: digits)))
    else .ok none

/-- The number read so far; an unfinished one has run into the end of the text. -/
def NumeralState.finish : NumeralState → Except JsonFault Json
  | .zero negative => Numeral.value ⟨negative, ['0'], none, none⟩
  | .whole negative digits => Numeral.value ⟨negative, digits.reverse, none, none⟩
  | .fraction negative w digits =>
    Numeral.value ⟨negative, w.reverse, some digits.reverse, none⟩
  | .exponent negative w f down digits =>
    Numeral.value ⟨negative, w.reverse, f.map List.reverse, some (down, digits.reverse)⟩
  | .minus | .point .. | .mark .. | .sign .. => .error .endInValue

/-! ### Texts -/

/-- Where the reading of a text stands. -/
inductive LexState where
  /-- Between tokens. -/
  | between
  /-- Inside a word: the characters to come and its token. -/
  | word (rest : List Char) (token : Token)
  /-- Inside a quoted text: its characters so far, latest first. -/
  | quoted (done : List Char) (state : QuoteState)
  | numeral (state : NumeralState)
  /-- After a malformed token. -/
  | broken
  deriving Inhabited

def isJsonBlank (c : Char) : Bool := c == ' ' || c == '\n' || c == '\t' || c == '\r'

def LexState.start (c : Char) : List Token × LexState :=
  if isJsonBlank c then ([], .between)
  else match c with
    | '[' => ([.openArr], .between)
    | ']' => ([.closeArr], .between)
    | '\x7b' => ([.openObj], .between)
    | '\x7d' => ([.closeObj], .between)
    | ',' => ([.comma], .between)
    | ':' => ([.colon], .between)
    | '"' => ([], .quoted [] .plain)
    | 'n' => ([], .word ['u', 'l', 'l'] .null)
    | 't' => ([], .word ['r', 'u', 'e'] (.bool true))
    | 'f' => ([], .word ['a', 'l', 's', 'e'] (.bool false))
    | '-' => ([], .numeral .minus)
    | '0' => ([], .numeral (.zero false))
    | _ =>
      if c.isDigit then ([], .numeral (.whole false [c]))
      else ([.malformed false .expectedValue], .broken)

def numberToken (state : NumeralState) : Token :=
  match state.finish with
  | .ok j => .number j
  | .error e => .malformed false e

/-- The tokens that `c` completes, and the next state. -/
def LexState.step (state : LexState) (c : Char) : List Token × LexState :=
  match state with
  | .between => start c
  | .word [] token => ([token], .broken)
  | .word (d :: rest) token =>
    if c != d then ([.malformed false .expectedIdent], .broken)
    else if rest.isEmpty then ([token], .between)
    else ([], .word rest token)
  | .quoted done .plain =>
    if c == '"' then ([.str (String.ofList done.reverse)], .between)
    else match QuoteState.plain.step c with
      | .ok (some d, next) => ([], .quoted (d :: done) next)
      | .ok (none, next) => ([], .quoted done next)
      | .error e => ([.malformed true e], .broken)
  | .quoted done inner =>
    match inner.step c with
    | .ok (some d, next) => ([], .quoted (d :: done) next)
    | .ok (none, next) => ([], .quoted done next)
    | .error e => ([.malformed true e], .broken)
  | .numeral inner =>
    match inner.step c with
    | .ok (some next) => ([], .numeral next)
    | .error e => ([.malformed false e], .broken)
    | .ok none =>
      match numberToken inner with
      | .malformed q e => ([.malformed q e], .broken)
      | token => (token :: (start c).1, (start c).2)
  | .broken => ([], .broken)

/-- The tokens that the end of the text completes. -/
def LexState.finish : LexState → List Token
  | .between => []
  | .word .. => [.malformed false .endInValue]
  | .quoted .. => [.malformed true .endInString]
  | .numeral inner => [numberToken inner]
  | .broken => []

/-- Read one more character; the tokens are kept latest first. -/
def lexStep (seen : List Token × LexState) (c : Char) : List Token × LexState :=
  ((seen.2.step c).1.reverse ++ seen.1, (seen.2.step c).2)

def lex (s : String) : List Token :=
  let (seen, state) := s.toList.foldl lexStep ([], .between)
  seen.reverse ++ state.finish

end RowPolicy.Json
