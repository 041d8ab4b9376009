import RowPolicy.Number.Digits

/-!
# TOML texts

A text stands in double quotes with escapes or in single quotes without them, on one line or, in
three quotes, on several. The line break behind three opening quotes is dropped.
-/

namespace RowPolicy.Toml

/-- The mark that may begin a file. -/
def byteOrderMark : Char := Char.ofNat 0xFEFF

def isBlank (c : Char) : Bool := c == ' ' || c == '\t'

/-- Whether a character may stand in a text or a comment. -/
def isTextChar (c : Char) : Bool := c == '\t' || (' ' ≤ c && c != '\x7f')

/-! ### Escapes -/

def hexValue? (c : Char) : Option Nat :=
  if c.isDigit then some (c.toNat - '0'.toNat)
  else if 'a' ≤ c && c ≤ 'f' then some (c.toNat - 'a'.toNat + 10)
  else if 'A' ≤ c && c ≤ 'F' then some (c.toNat - 'A'.toNat + 10)
  else none

def charOfHex? (cs : List Char) : Option Char := do
  let n ← cs.foldlM (fun n c => (hexValue? c).map (16 * n + ·)) 0
  if n < 0xD800 || (0xDFFF < n && n < 0x110000) then some (Char.ofNat n) else none

def shortEscape? : Char → Option Char
  | 'b' => some '\x08'
  | 'f' => some '\x0c'
  | 'n' => some '\n'
  | 'r' => some '\r'
  | 't' => some '\t'
  | '\\' => some '\\'
  | '\x22' => some '\x22'
  | _ => none

/-! ### Texts on one line -/

/-- Read a text in double quotes, given its characters so far in reverse. -/
def quotedText (out : List Char) : List Char → Option (String × List Char)
  | '\x22' :: rest => some (String.ofList out.reverse, rest)
  | '\\' :: 'u' :: a :: b :: c :: d :: rest => do
    let ch ← charOfHex? [a, b, c, d]
    quotedText (ch :: out) rest
  | '\\' :: 'U' :: a :: b :: c :: d :: e :: f :: g :: h :: rest => do
    let ch ← charOfHex? [a, b, c, d, e, f, g, h]
    quotedText (ch :: out) rest
  | '\\' :: c :: rest => do
    let ch ← shortEscape? c
    quotedText (ch :: out) rest
  | c :: rest => if isTextChar c && c != '\\' then quotedText (c :: out) rest else none
  | [] => none

def rawText (out : List Char) : List Char → Option (String × List Char)
  | '\x27' :: rest => some (String.ofList out.reverse, rest)
  | c :: rest => if isTextChar c then rawText (c :: out) rest else none
  | [] => none

/-! ### Texts on several lines -/

def dropBreak : List Char → List Char
  | '\n' :: rest => rest
  | '\r' :: '\n' :: rest => rest
  | cs => cs

/-- Whether only blanks are left on the line. -/
def endsLine (cs : List Char) : Bool :=
  match cs.dropWhile isBlank with
  | '\n' :: _ => true
  | '\r' :: '\n' :: _ => true
  | _ => false

/-- Read a text in three double quotes. Up to two quotes may stand before the closing ones. Behind
a backslash at the end of a line, white space is dropped. -/
def quotedLines (trim : Bool) (out : List Char) : List Char → Option (String × List Char)
  | '\x22' :: '\x22' :: '\x22' :: '\x22' :: '\x22' :: rest =>
    some (String.ofList ('\x22' :: '\x22' :: out).reverse, rest)
  | '\x22' :: '\x22' :: '\x22' :: '\x22' :: rest =>
    some (String.ofList ('\x22' :: out).reverse, rest)
  | '\x22' :: '\x22' :: '\x22' :: rest => some (String.ofList out.reverse, rest)
  | '\n' :: rest => quotedLines trim (if trim then out else '\n' :: out) rest
  | '\r' :: '\n' :: rest => quotedLines trim (if trim then out else '\n' :: out) rest
  | '\\' :: 'u' :: a :: b :: c :: d :: rest => do
    let ch ← charOfHex? [a, b, c, d]
    quotedLines false (ch :: out) rest
  | '\\' :: 'U' :: a :: b :: c :: d :: e :: f :: g :: h :: rest => do
    let ch ← charOfHex? [a, b, c, d, e, f, g, h]
    quotedLines false (ch :: out) rest
  | '\\' :: c :: rest =>
    if endsLine (c :: rest) then quotedLines true out (c :: rest)
    else do
      let ch ← shortEscape? c
      quotedLines false (ch :: out) rest
  | c :: rest =>
    if trim && isBlank c then quotedLines true out rest
    else if isTextChar c && c != '\\' then quotedLines false (c :: out) rest
    else none
  | [] => none

def rawLines (out : List Char) : List Char → Option (String × List Char)
  | '\x27' :: '\x27' :: '\x27' :: '\x27' :: '\x27' :: rest =>
    some (String.ofList ('\x27' :: '\x27' :: out).reverse, rest)
  | '\x27' :: '\x27' :: '\x27' :: '\x27' :: rest =>
    some (String.ofList ('\x27' :: out).reverse, rest)
  | '\x27' :: '\x27' :: '\x27' :: rest => some (String.ofList out.reverse, rest)
  | '\n' :: rest => rawLines ('\n' :: out) rest
  | '\r' :: '\n' :: rest => rawLines ('\n' :: out) rest
  | c :: rest => if isTextChar c then rawLines (c :: out) rest else none
  | [] => none

end RowPolicy.Toml
