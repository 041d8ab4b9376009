/-!
# Positions in YAML texts

A cursor is a position in a text with its line and column. Lines end in a carriage return, a line
feed, both, or one of three other breaks; the first three and the next-line character all count as
a line feed.
-/

namespace RowPolicy.Yaml

/-- A position: characters before it, line and column, all from zero. -/
structure Mark where
  index : Nat := 0
  line : Nat := 0
  column : Nat := 0
  deriving DecidableEq, Repr, Inhabited

/-! ### Characters -/

/-- Whether a character may occur in a text. -/
def isAllowed (c : Char) : Bool :=
  let n := c.toNat
  n == 0x09 || n == 0x0A || n == 0x0D || (0x20 ≤ n && n ≤ 0x7E) || n == 0x85
    || (0xA0 ≤ n && n ≤ 0xFFFD) || 0x10000 ≤ n

def isBlank (c : Char) : Bool := c == ' ' || c == '\t'

def isBreak (c : Char) : Bool :=
  c == '\r' || c == '\n' || c.toNat == 0x85 || c.toNat == 0x2028 || c.toNat == 0x2029

/-- Letters, digits, hyphens and underscores. -/
def isWord (c : Char) : Bool := c.isAlphanum || c == '-' || c == '_'

def hexDigit? (c : Char) : Option Nat :=
  if c.isDigit then some (c.toNat - '0'.toNat)
  else if 'a' ≤ c && c ≤ 'f' then some (c.toNat - 'a'.toNat + 10)
  else if 'A' ≤ c && c ≤ 'F' then some (c.toNat - 'A'.toNat + 10)
  else none

/-! ### Cursors -/

structure Cursor where
  rest : List Char
  mark : Mark := {}
  deriving Inhabited

namespace Cursor

def peekAt (c : Cursor) (distance : Nat) : Option Char := c.rest[distance]?

def peek (c : Cursor) : Option Char := c.rest.head?

def hasAt (c : Cursor) (ch : Char) (distance : Nat) : Bool := c.peekAt distance == some ch

def has (c : Cursor) (ch : Char) : Bool := c.peek == some ch

def hasClass (c : Cursor) (p : Char → Bool) : Bool := c.peek.any p

def atEnd (c : Cursor) : Bool := c.rest.isEmpty

def gapAt (c : Cursor) (distance : Nat) : Bool :=
  match c.peekAt distance with
  | none => true
  | some ch => isBlank ch || isBreak ch

def atGap (c : Cursor) : Bool := c.gapAt 0

def atLineEnd (c : Cursor) : Bool :=
  match c.peek with
  | none => true
  | some ch => isBreak ch

def skip (c : Cursor) : Cursor :=
  match c.rest with
  | [] => c
  | _ :: rest => ⟨rest, { c.mark with index := c.mark.index + 1, column := c.mark.column + 1 }⟩

def skipMany : Nat → Cursor → Cursor
  | 0, c => c
  | n + 1, c => skipMany n c.skip

def nextLine (m : Mark) (chars : Nat) : Mark := ⟨m.index + chars, m.line + 1, 0⟩

/-- Pass over a break; what it stands for is returned. -/
def readBreak (c : Cursor) : List Char × Cursor :=
  match c.rest with
  | '\r' :: '\n' :: rest => (['\n'], ⟨rest, nextLine c.mark 2⟩)
  | ch :: rest =>
    if ch == '\r' || ch == '\n' || ch.toNat == 0x85 then (['\n'], ⟨rest, nextLine c.mark 1⟩)
    else if isBreak ch then ([ch], ⟨rest, nextLine c.mark 1⟩)
    else ([], c)
  | [] => ([], c)

def skipBreak (c : Cursor) : Cursor := c.readBreak.2

/-- Pass over characters of a class; they are returned. -/
def readWhile (p : Char → Bool) (c : Cursor) : List Char × Cursor :=
  let taken := c.rest.takeWhile p
  (taken, skipMany taken.length c)

def skipWhile (p : Char → Bool) (c : Cursor) : Cursor := (c.readWhile p).2

def skipLine (c : Cursor) : Cursor := c.skipWhile fun ch => !isBreak ch

/-- Whether three equal characters stand alone at the start of a line. -/
def atRule (c : Cursor) (ch : Char) : Bool :=
  c.mark.column == 0 && c.has ch && c.hasAt ch 1 && c.hasAt ch 2 && c.gapAt 3

/-- Whether the start or the end of a document is marked here. -/
def atDocumentRule (c : Cursor) : Bool := c.atRule '-' || c.atRule '.'

end Cursor

end RowPolicy.Yaml
