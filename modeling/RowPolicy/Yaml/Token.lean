import RowPolicy.Text.Utf8
import RowPolicy.Yaml.Scalar

/-!
# Tokens of YAML texts

Indentation and the indicators of collections become tokens. A key that stands before its colon on
one line is only known as a key when the colon is met, so its token is put in front of it then. A
malformed text has no tokens.
-/

namespace RowPolicy.Yaml

inductive TokenKind where
  | streamEnd
  | version (major minor : Nat)
  | tagDirective (handle uri : String)
  | documentStart
  | documentEnd
  | blockSequenceStart
  | blockMappingStart
  | blockEnd
  | flowSequenceStart
  | flowSequenceEnd
  | flowMappingStart
  | flowMappingEnd
  | blockEntry
  | flowEntry
  | key
  | value
  | reference (name : String)
  | anchor (name : String)
  | tag (handle suffix : String)
  | scalar (text : String) (plain : Bool)
  deriving DecidableEq, Repr, Inhabited

structure Token where
  kind : TokenKind
  start : Mark
  stop : Mark
  deriving DecidableEq, Repr, Inhabited

/-! ### Directives and tags -/

def readNumber (c : Cursor) : Option (Nat × Cursor) :=
  let (ds, c) := c.readWhile Char.isDigit
  if ds.isEmpty || 9 < ds.length then none
  else some (ds.foldl (fun n d => 10 * n + (d.toNat - '0'.toNat)) 0, c)

def readVersion (c : Cursor) : Option (TokenKind × Cursor) := do
  let (major, c) ← readNumber (c.skipWhile isBlank)
  if !c.has '.' then none
  else do
    let (minor, c) ← readNumber c.skip
    some (.version major minor, c)

/-- Read the handle of a tag: an exclamation mark, or a word between two. -/
def readHandle (c : Cursor) : Option (List Char × Cursor) :=
  if !c.has '!' then none
  else
    let (word, c) := c.skip.readWhile isWord
    if c.has '!' then some ('!' :: word ++ ['!'], c.skip) else some ('!' :: word, c)

/-- The number of bytes of a character, by its first byte. -/
def sequenceLength? (byte : Nat) : Option Nat :=
  if byte < 0x80 then some 1
  else if 0xC0 ≤ byte && byte < 0xE0 then some 2
  else if 0xE0 ≤ byte && byte < 0xF0 then some 3
  else if 0xF0 ≤ byte && byte < 0xF8 then some 4
  else none

def readByte (c : Cursor) : Option (Nat × Cursor) := do
  if !c.has '%' then none
  else do
    let high ← (c.peekAt 1).bind hexDigit?
    let low ← (c.peekAt 2).bind hexDigit?
    some (16 * high + low, Cursor.skipMany 3 c)

/-- Read the bytes that continue a character. -/
def readTrailing : Nat → Cursor → Option (List Nat × Cursor)
  | 0, c => some ([], c)
  | n + 1, c => do
    let (byte, c) ← readByte c
    if byte < 0x80 || 0xC0 ≤ byte then none
    else do
      let (more, c) ← readTrailing n c
      some (byte :: more, c)

def readEscapedChar (c : Cursor) : Option (List Char × Cursor) := do
  let (first, c) ← readByte c
  let length ← sequenceLength? first
  let (more, c) ← readTrailing (length - 1) c
  some ((Text.decodeLossy ((first :: more).map UInt8.ofNat)).toList, c)

/-- The characters of a tag. Flow indicators may only stand between angle brackets. -/
def isTagChar (verbatim : Bool) (ch : Char) : Bool :=
  isWord ch
    || [';', '/', '?', ':', '@', '&', '=', '+', '$', '.', '%', '!', '~', '*', '\x27'].contains ch
    || ch == '(' || ch == ')' || (verbatim && [',', '[', ']'].contains ch)

def readTagChars (verbatim : Bool) : Nat → List Char → Cursor → Option (List Char × Cursor)
  | 0, _, _ => none
  | fuel + 1, back, c =>
    match c.peek with
    | none => some (back.reverse, c)
    | some ch =>
      if !isTagChar verbatim ch then some (back.reverse, c)
      else if ch == '%' then do
        let (cs, c) ← readEscapedChar c
        readTagChars verbatim fuel (cs.reverse ++ back) c
      else readTagChars verbatim fuel (ch :: back) c.skip

def readTag (size : Nat) (c : Cursor) : Option (TokenKind × Cursor) :=
  if c.hasAt '<' 1 then do
    let (uri, c) ← readTagChars true size [] (Cursor.skipMany 2 c)
    if uri.isEmpty || !c.has '>' then none else some (.tag "" (String.ofList uri), c.skip)
  else do
    let (handle, c) ← readHandle c
    if 1 < handle.length && handle.getLast? == some '!' then do
      let (suffix, c) ← readTagChars false size [] c
      if suffix.isEmpty then none
      else some (.tag (String.ofList handle) (String.ofList suffix), c)
    else do
      let (suffix, c) ← readTagChars false size (handle.drop 1).reverse c
      if suffix.isEmpty then some (.tag "" "!", c) else some (.tag "!" (String.ofList suffix), c)

/-- Read the handle and the URI of a tag directive. -/
def readTagDirective (size : Nat) (c : Cursor) : Option (TokenKind × Cursor) := do
  let (handle, c) ← readHandle (c.skipWhile isBlank)
  if 1 < handle.length && handle.getLast? != some '!' then none
  else if !c.hasClass isBlank then none
  else do
    let (uri, c) ← readTagChars true size [] (c.skipWhile isBlank)
    if uri.isEmpty || !c.atGap then none
    else some (.tagDirective (String.ofList handle) (String.ofList uri), c)

/-- Read a directive behind its percent sign, with the rest of its line. -/
def readDirective (size : Nat) (c : Cursor) : Option (TokenKind × Cursor × Cursor) := do
  let (name, c) := c.readWhile isWord
  if name.isEmpty || !c.atGap then none
  else do
    let (kind, c) ← match String.ofList name with
      | "YAML" => readVersion c
      | "TAG" => readTagDirective size c
      | _ => none
    let stop := c
    let c := c.skipWhile isBlank
    let c := if c.has '#' then c.skipLine else c
    if !c.atLineEnd then none else some (kind, stop, c.skipBreak)

def readAnchor (c : Cursor) : Option (String × Cursor) :=
  let (name, c) := c.readWhile isWord
  let follows := c.hasClass fun ch => ['?', ':', ',', ']', '\x7d', '%', '@', '\x60'].contains ch
  if name.isEmpty || !(c.atGap || follows) then none else some (String.ofList name, c)

/-! ### The scanner -/

def byteOrderMark : Char := Char.ofNat 0xFEFF

/-- A place where a key without an indicator may have started. -/
structure KeyStart where
  /-- Whether the text is malformed if there is no colon. -/
  required : Bool
  /-- The number of tokens before it. -/
  number : Nat
  mark : Mark
  deriving Inhabited

structure Scanner where
  cursor : Cursor
  /-- The tokens, last one first. -/
  back : List Token := []
  count : Nat := 0
  indent : Int := -1
  /-- The columns of the block collections around it. -/
  outer : List Int := []
  /-- Whether a key may start here. -/
  keyAllowed : Bool := true
  /-- The key that may have started at this level of flow collections. -/
  keyStart : Option KeyStart := none
  /-- The same for the levels around it. -/
  outerKeys : List (Option KeyStart) := []
  deriving Inhabited

namespace Scanner

def inFlow (s : Scanner) : Bool := !s.outerKeys.isEmpty

def mark (s : Scanner) : Mark := s.cursor.mark

def push (s : Scanner) (kind : TokenKind) (start stop : Mark) : Scanner :=
  { s with back := ⟨kind, start, stop⟩ :: s.back, count := s.count + 1 }

/-- Put a token in front of others; `distance` is the number of tokens behind it. -/
def insertBack (t : Token) : Nat → List Token → List Token
  | 0, back => t :: back
  | _ + 1, [] => [t]
  | distance + 1, u :: back => u :: insertBack t distance back

/-- Put a token behind a number of tokens. -/
def insert (s : Scanner) (kind : TokenKind) (number : Nat) (mark : Mark) : Scanner :=
  { s with back := insertBack ⟨kind, mark, mark⟩ (s.count - number) s.back, count := s.count + 1 }

/-- Forget a key that has become impossible: it must be on one line and not too long. -/
def expireKey (m : Mark) : Option KeyStart → Option (Option KeyStart)
  | none => some none
  | some k =>
    if k.mark.line < m.line || k.mark.index + 1024 < m.index then
      if k.required then none else some none
    else some (some k)

def expireKeys (s : Scanner) : Option Scanner := do
  let keyStart ← expireKey s.mark s.keyStart
  let outerKeys ← s.outerKeys.mapM (expireKey s.mark)
  some { s with keyStart := keyStart, outerKeys := outerKeys }

/-- Give up the key that may have started at this level. -/
def dropKey (s : Scanner) : Option Scanner :=
  match s.keyStart with
  | some k => if k.required then none else some { s with keyStart := none }
  | none => some s

/-- Note that a key may start here. -/
def saveKey (s : Scanner) : Option Scanner :=
  if s.keyAllowed then do
    let required := !s.inFlow && s.indent == s.mark.column
    let s ← s.dropKey
    some { s with keyStart := some ⟨required, s.count, s.mark⟩ }
  else some s

/-- Start a block collection at a column, unless it has started already. -/
def indentTo (s : Scanner) (column : Nat) (kind : TokenKind) (number : Nat) (mark : Mark) :
    Scanner :=
  if s.inFlow || (column : Int) ≤ s.indent then s
  else { s with outer := s.indent :: s.outer, indent := column }.insert kind number mark

/-- End the block collections that are indented more than a column. -/
def closeBlocks (column : Int) (indent : Int) (outer : List Int) (s : Scanner) : Scanner :=
  if column < indent then
    let s := s.push .blockEnd s.mark s.mark
    match outer with
    | [] => { s with indent := -1, outer := [] }
    | i :: rest => closeBlocks column i rest s
  else { s with indent := indent, outer := outer }

def unindent (s : Scanner) (column : Int) : Scanner :=
  if s.inFlow then s else closeBlocks column s.indent s.outer s

/-- Pass over characters that make up a token. -/
def single (s : Scanner) (kind : TokenKind) (length : Nat) : Scanner :=
  let start := s.mark
  let s := { s with cursor := Cursor.skipMany length s.cursor }
  s.push kind start s.mark

/-! ### Steps of the scanner -/

/-- Pass over blanks, comments and breaks. A tab may not stand where a key may start. -/
def skipGap (s : Scanner) : Nat → Scanner
  | 0 => s
  | fuel + 1 =>
    let c := s.cursor
    let c := if c.mark.index == 0 && c.has byteOrderMark then c.skip else c
    let c := c.skipWhile fun ch => ch == ' ' || ((s.inFlow || !s.keyAllowed) && ch == '\t')
    let c := if c.has '#' then c.skipLine else c
    if c.hasClass isBreak then
      skipGap { s with cursor := c.skipBreak, keyAllowed := s.keyAllowed || !s.inFlow } fuel
    else { s with cursor := c }

def finish (s : Scanner) : Option Scanner := do
  let m := s.mark
  let m : Mark := if m.column == 0 then m else ⟨m.index, m.line + 1, 0⟩
  let s := { s with cursor := ⟨[], m⟩ }.unindent (-1)
  let s ← s.dropKey
  some ({ s with keyAllowed := false }.push .streamEnd s.mark s.mark)

def directive (size : Nat) (s : Scanner) : Option Scanner := do
  let s ← (s.unindent (-1)).dropKey
  let (kind, stop, c) ← readDirective size s.cursor.skip
  some ({ s with keyAllowed := false, cursor := c }.push kind s.mark stop.mark)

/-- The start or the end of a document. -/
def document (kind : TokenKind) (s : Scanner) : Option Scanner := do
  let s ← (s.unindent (-1)).dropKey
  some ({ s with keyAllowed := false }.single kind 3)

def openFlow (kind : TokenKind) (s : Scanner) : Option Scanner := do
  let s ← s.saveKey
  some ({ s with outerKeys := s.keyStart :: s.outerKeys, keyStart := none,
                 keyAllowed := true }.single kind 1)

def leaveFlow (s : Scanner) : Scanner :=
  match s.outerKeys with
  | [] => s
  | k :: rest => { s with keyStart := k, outerKeys := rest }

def closeFlow (kind : TokenKind) (s : Scanner) : Option Scanner := do
  let s ← s.dropKey
  some ({ s.leaveFlow with keyAllowed := false }.single kind 1)

def flowEntry (s : Scanner) : Option Scanner := do
  let s ← s.dropKey
  some ({ s with keyAllowed := true }.single .flowEntry 1)

def startBlock (kind : TokenKind) (s : Scanner) : Option Scanner :=
  if s.inFlow then some s
  else if s.keyAllowed then some (s.indentTo s.mark.column kind s.count s.mark)
  else none

def blockEntry (s : Scanner) : Option Scanner := do
  let s ← s.startBlock .blockSequenceStart
  let s ← s.dropKey
  some ({ s with keyAllowed := true }.single .blockEntry 1)

def keyIndicator (s : Scanner) : Option Scanner := do
  let s ← s.startBlock .blockMappingStart
  let s ← s.dropKey
  some ({ s with keyAllowed := !s.inFlow }.single .key 1)

/-- The indicator of a value, which makes a key of what may have been one. -/
def valueIndicator (s : Scanner) : Option Scanner :=
  match s.keyStart with
  | some k =>
    let s := s.insert .key k.number k.mark
    let s := s.indentTo k.mark.column .blockMappingStart k.number k.mark
    some ({ s with keyStart := none, keyAllowed := false }.single .value 1)
  | none => do
    let s ← s.startBlock .blockMappingStart
    some ({ s with keyAllowed := !s.inFlow }.single .value 1)

def named (kind : String → TokenKind) (s : Scanner) : Option Scanner := do
  let s ← s.saveKey
  let (name, c) ← readAnchor s.cursor.skip
  some ({ s with keyAllowed := false, cursor := c }.push (kind name) s.mark c.mark)

def tag (size : Nat) (s : Scanner) : Option Scanner := do
  let s ← s.saveKey
  let (kind, c) ← readTag size s.cursor
  if !c.atGap && !(s.inFlow && c.has ',') then none
  else some ({ s with keyAllowed := false, cursor := c }.push kind s.mark c.mark)

def block (size : Nat) (literal : Bool) (s : Scanner) : Option Scanner := do
  let s ← s.dropKey
  let (text, c) ← readBlock size literal s.indent s.cursor.skip
  some ({ s with keyAllowed := true, cursor := c }.push (.scalar (String.ofList text) false)
    s.mark c.mark)

def quoted (size : Nat) (single : Bool) (s : Scanner) : Option Scanner := do
  let s ← s.saveKey
  let (text, c) ← readQuoted single size {} s.cursor.skip
  some ({ s with keyAllowed := false, cursor := c }.push (.scalar (String.ofList text) false)
    s.mark c.mark)

def plain (size : Nat) (s : Scanner) : Option Scanner := do
  let s ← s.saveKey
  let (text, broken, c) ← readPlain s.inFlow (s.indent + 1).toNat size {} s.cursor
  some ({ s with keyAllowed := broken, cursor := c }.push (.scalar (String.ofList text) true)
    s.mark c.mark)

/-- The characters that no plain scalar starts with. -/
def isIndicator (ch : Char) : Bool :=
  ['-', '?', ':', ',', '[', ']', '\x7b', '\x7d', '#', '&', '*', '!', '|', '>', '\x27', '"', '%',
    '@', '\x60'].contains ch

def startsPlain (s : Scanner) : Bool :=
  let c := s.cursor
  (!c.atGap && !c.hasClass isIndicator)
    || (c.has '-' && !(c.peekAt 1).any isBlank)
    || (!s.inFlow && (c.has '?' || c.has ':') && !c.gapAt 1)

def next (size : Nat) (s : Scanner) : Option Scanner := do
  let s := s.skipGap size
  let s ← s.expireKeys
  let s := s.unindent s.mark.column
  let c := s.cursor
  match c.peek with
  | none => s.finish
  | some ch =>
    if c.mark.column == 0 && ch == '%' then s.directive size
    else if c.atRule '-' then s.document .documentStart
    else if c.atRule '.' then s.document .documentEnd
    else if ch == '[' then s.openFlow .flowSequenceStart
    else if ch == '\x7b' then s.openFlow .flowMappingStart
    else if ch == ']' then s.closeFlow .flowSequenceEnd
    else if ch == '\x7d' then s.closeFlow .flowMappingEnd
    else if ch == ',' then s.flowEntry
    else if ch == '-' && c.gapAt 1 then s.blockEntry
    else if ch == '?' && (s.inFlow || c.gapAt 1) then s.keyIndicator
    else if ch == ':' && (s.inFlow || c.gapAt 1) then s.valueIndicator
    else if ch == '*' then s.named .reference
    else if ch == '&' then s.named .anchor
    else if ch == '!' then s.tag size
    else if ch == '|' && !s.inFlow then s.block size true
    else if ch == '>' && !s.inFlow then s.block size false
    else if ch == '\x27' then s.quoted size true
    else if ch == '"' then s.quoted size false
    else if s.startsPlain then s.plain size
    else none

def run (size : Nat) : Nat → Scanner → Option (List Token)
  | 0, _ => none
  | fuel + 1, s => do
    let s ← s.next size
    match s.back with
    | ⟨.streamEnd, _, _⟩ :: _ => some s.back.reverse
    | _ => run size fuel s

end Scanner

/-- The tokens of a text. A mark of the byte order in front is passed over. -/
def tokens (text : String) : Option (List Token) :=
  let cs := text.toList
  let cs := if cs.head? == some byteOrderMark then cs.tail else cs
  let size := cs.length + 2
  if cs.all isAllowed then Scanner.run size size { cursor := ⟨cs, {}⟩ } else none

end RowPolicy.Yaml
