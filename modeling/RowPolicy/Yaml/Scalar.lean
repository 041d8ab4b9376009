import RowPolicy.Yaml.Cursor

/-!
# Scalars in YAML texts

Plain, quoted and block scalars. Inside a scalar a single line break is folded into a space and
further ones are kept; a literal block keeps them all. Each reader takes a bound on the number of
characters that are left.
-/

namespace RowPolicy.Yaml

/-- What was read so far of a scalar, with the blanks and breaks that may follow. -/
structure Folding where
  /-- The characters of the scalar, last one first. -/
  back : List Char := []
  blanks : List Char := []
  firstBreak : List Char := []
  moreBreaks : List Char := []
  /-- Whether a break was passed since the last character. -/
  broken : Bool := false
  deriving Inhabited

namespace Folding

def text (f : Folding) : List Char := f.back.reverse

/-- What blanks and breaks stand for between two parts of a scalar. -/
def joint (f : Folding) : List Char :=
  if f.broken then
    if f.firstBreak.head? == some '\n' then
      if f.moreBreaks.isEmpty then [' '] else f.moreBreaks
    else f.firstBreak ++ f.moreBreaks
  else f.blanks

def settle (f : Folding) : Folding := { back := f.joint.reverse ++ f.back }

def add (f : Folding) (ch : Char) : Folding := { f with back := ch :: f.back }

def addBlank (f : Folding) (ch : Char) : Folding :=
  if f.broken then f else { f with blanks := f.blanks ++ [ch] }

def addBreak (f : Folding) (cs : List Char) : Folding :=
  if f.broken then { f with moreBreaks := f.moreBreaks ++ cs }
  else { f with blanks := [], firstBreak := cs, broken := true }

end Folding

/-! ### Quoted scalars -/

/-- The character that an escape of one letter stands for. -/
def simpleEscape? : Char → Option Char
  | '0' => some (Char.ofNat 0)
  | 'a' => some (Char.ofNat 7)
  | 'b' => some (Char.ofNat 8)
  | 't' => some '\t'
  | '\t' => some '\t'
  | 'n' => some '\n'
  | 'v' => some (Char.ofNat 11)
  | 'f' => some (Char.ofNat 12)
  | 'r' => some '\r'
  | 'e' => some (Char.ofNat 27)
  | ' ' => some ' '
  | '"' => some '"'
  | '/' => some '/'
  | '\\' => some '\\'
  | 'N' => some (Char.ofNat 0x85)
  | '_' => some (Char.ofNat 0xA0)
  | 'L' => some (Char.ofNat 0x2028)
  | 'P' => some (Char.ofNat 0x2029)
  | _ => none

/-- The number of digits of an escape by number. -/
def escapeDigits? : Char → Option Nat
  | 'x' => some 2
  | 'u' => some 4
  | 'U' => some 8
  | _ => none

def readCode (digits : Nat) (c : Cursor) : Option (Char × Cursor) := do
  let ds ← (List.range digits).mapM fun i => (c.peekAt i).bind hexDigit?
  let value := ds.foldl (fun n d => 16 * n + d) 0
  if (0xD800 ≤ value && value ≤ 0xDFFF) || 0x10FFFF < value then none
  else some (Char.ofNat value, Cursor.skipMany digits c)

def readEscape (c : Cursor) : Option (Char × Cursor) := do
  let ch ← c.peek
  match simpleEscape? ch with
  | some e => some (e, c.skip)
  | none => do
    let digits ← escapeDigits? ch
    readCode digits c.skip

/-- Pass over the blanks and breaks inside a quoted scalar. -/
def quotedGap : Nat → Folding → Cursor → Folding × Cursor
  | 0, f, c => (f, c)
  | fuel + 1, f, c =>
    match c.peek with
    | none => (f, c)
    | some ch =>
      if isBlank ch then quotedGap fuel (f.addBlank ch) c.skip
      else if isBreak ch then
        let (cs, c) := c.readBreak
        quotedGap fuel (f.addBreak cs) c
      else (f, c)

/-- Read a quoted scalar behind its opening quote, up to its closing one. -/
def readQuoted (single : Bool) : Nat → Folding → Cursor → Option (List Char × Cursor)
  | 0, _, _ => none
  | fuel + 1, f, c =>
    if c.atDocumentRule then none
    else
      match c.peek with
      | none => none
      | some ch =>
        if isBlank ch || isBreak ch then
          let (f, c) := quotedGap (fuel + 1) f c
          readQuoted single fuel f.settle c
        else if single then
          if ch == '\x27' then
            if c.hasAt '\x27' 1 then readQuoted single fuel (f.add ch) (Cursor.skipMany 2 c)
            else some (f.text, c.skip)
          else readQuoted single fuel (f.add ch) c.skip
        else if ch == '"' then some (f.text, c.skip)
        else if ch == '\\' then
          if (c.peekAt 1).any isBreak then
            -- an escaped break joins the lines
            let (f, c) := quotedGap (fuel + 1) { f with broken := true } c.skip.skipBreak
            readQuoted single fuel f.settle c
          else do
            let (e, c) ← readEscape c.skip
            readQuoted single fuel (f.add e) c
        else readQuoted single fuel (f.add ch) c.skip

/-! ### Plain scalars -/

def isFlowIndicator (ch : Char) : Bool := [',', '[', ']', '\x7b', '\x7d'].contains ch

/-- Whether a plain scalar ends at a character that is no blank. -/
def endsPlain (inFlow : Bool) (c : Cursor) : Bool :=
  (c.has ':' && c.gapAt 1) || (inFlow && c.hasClass isFlowIndicator)

/-- Whether a colon inside a flow collection is malformed. -/
def badColon (inFlow : Bool) (c : Cursor) : Bool :=
  inFlow && c.has ':' && (c.peekAt 1).any fun ch => ch == '?' || isFlowIndicator ch

/-- Read the characters of a plain scalar up to a blank, or to its end. -/
def plainWord (inFlow : Bool) : Nat → Folding → Cursor → Option (Folding × Cursor)
  | 0, _, _ => none
  | fuel + 1, f, c =>
    if c.atGap then some (f, c)
    else if badColon inFlow c then none
    else if endsPlain inFlow c then some (f, c)
    else
      match c.peek with
      | none => some (f, c)
      | some ch =>
        let f := if f.broken || !f.blanks.isEmpty then f.settle else f
        plainWord inFlow fuel (f.add ch) c.skip

/-- Pass over the blanks and breaks inside a plain scalar; a tab must not stand for indentation. -/
def plainGap (indent : Nat) : Nat → Folding → Cursor → Option (Folding × Cursor)
  | 0, f, c => some (f, c)
  | fuel + 1, f, c =>
    match c.peek with
    | none => some (f, c)
    | some ch =>
      if isBlank ch then
        if f.broken && c.mark.column < indent && ch == '\t' then none
        else plainGap indent fuel (f.addBlank ch) c.skip
      else if isBreak ch then
        let (cs, c) := c.readBreak
        plainGap indent fuel (f.addBreak cs) c
      else some (f, c)

/-- Read a plain scalar whose lines are indented by at least `indent`. The text, and whether it was
followed by a break. -/
def readPlain (inFlow : Bool) (indent : Nat) : Nat → Folding → Cursor →
    Option (List Char × Bool × Cursor)
  | 0, _, _ => none
  | fuel + 1, f, c =>
    if c.atDocumentRule || c.has '#' then some (f.text, f.broken, c)
    else do
      let (f, c) ← plainWord inFlow (fuel + 1) f c
      if !c.hasClass (fun ch => isBlank ch || isBreak ch) then some (f.text, f.broken, c)
      else do
        let (f, c) ← plainGap indent (fuel + 1) f c
        if !inFlow && c.mark.column < indent then some (f.text, f.broken, c)
        else readPlain inFlow indent fuel f c

/-! ### Block scalars -/

inductive Chomping where
  | clip
  | strip
  | keep
  deriving DecidableEq, Repr, Inhabited

def chomping? : Option Char → Option Chomping
  | some '+' => some .keep
  | some '-' => some .strip
  | _ => none

/-- Read an indentation indicator; zero is malformed. -/
def readIncrement (c : Cursor) : Option (Nat × Cursor) :=
  match c.peek with
  | some ch =>
    if ch == '0' then none
    else if ch.isDigit then some (ch.toNat - '0'.toNat, c.skip)
    else some (0, c)
  | none => some (0, c)

/-- Read the indicators of a block scalar in either order. -/
def readHeader (c : Cursor) : Option (Chomping × Nat × Cursor) :=
  match chomping? c.peek with
  | some chomping => do
    let (increment, c) ← readIncrement c.skip
    some (chomping, increment, c)
  | none => do
    let (increment, c) ← readIncrement c
    if increment == 0 then some (.clip, 0, c)
    else
      match chomping? c.peek with
      | some chomping => some (chomping, increment, c.skip)
      | none => some (.clip, increment, c)

/-- Pass over the indentation of a line, or over all spaces if it is not known. -/
def skipIndent (indent : Nat) (c : Cursor) : Cursor :=
  let spaces := (c.rest.takeWhile (· == ' ')).length
  Cursor.skipMany (if indent == 0 then spaces else min spaces (indent - c.mark.column)) c

/-- Pass over indentation and empty lines. The greatest column that was reached and the breaks. -/
def blockGap (indent : Nat) : Nat → Nat → List Char → Cursor → Option (Nat × List Char × Cursor)
  | 0, deepest, breaks, c => some (deepest, breaks, c)
  | fuel + 1, deepest, breaks, c =>
    let c := skipIndent indent c
    let deepest := max deepest c.mark.column
    if (indent == 0 || c.mark.column < indent) && c.has '\t' then none
    else if c.hasClass isBreak then
      let (cs, c) := c.readBreak
      blockGap indent fuel deepest (breaks ++ cs) c
    else some (deepest, breaks, c)

/-- Pass over indentation and empty lines, finding the indentation if it is not known: that of the
deepest line, and more than that of the collection around. -/
def blockBreaks (size : Nat) (outer : Int) (indent : Nat) (c : Cursor) :
    Option (Nat × List Char × Cursor) := do
  let (deepest, breaks, c) ← blockGap indent size 0 [] c
  if indent == 0 then some (max (max deepest (outer + 1).toNat) 1, breaks, c)
  else some (indent, breaks, c)

/-- What was read so far of a block scalar. -/
structure BlockText where
  /-- The characters of the scalar, last one first. -/
  back : List Char := []
  firstBreak : List Char := []
  moreBreaks : List Char := []
  /-- Whether the last line started with a blank. -/
  leadingBlank : Bool := false
  deriving Inhabited

def BlockText.joint (b : BlockText) (literal blank : Bool) : List Char :=
  if !literal && b.firstBreak.head? == some '\n' && !b.leadingBlank && !blank then
    (if b.moreBreaks.isEmpty then [' '] else []) ++ b.moreBreaks
  else b.firstBreak ++ b.moreBreaks

def readLines (literal : Bool) (outer : Int) (indent : Nat) :
    Nat → BlockText → Cursor → Option (BlockText × Cursor)
  | 0, b, c => some (b, c)
  | fuel + 1, b, c =>
    if c.mark.column != indent || c.atEnd then some (b, c)
    else do
      let blank := c.hasClass isBlank
      let (line, c) := c.readWhile fun ch => !isBreak ch
      let (first, c) := c.readBreak
      let (_, more, c) ← blockBreaks (fuel + 1) outer indent c
      let back := line.reverse ++ (b.joint literal blank).reverse ++ b.back
      readLines literal outer indent fuel ⟨back, first, more, blank⟩ c

/-- Read a block scalar behind its indicator, inside a collection indented by `outer`. -/
def readBlock (size : Nat) (literal : Bool) (outer : Int) (c : Cursor) :
    Option (List Char × Cursor) := do
  let (chomping, increment, c) ← readHeader c
  let c := c.skipWhile isBlank
  let c := if c.has '#' then c.skipLine else c
  if !c.atLineEnd then none
  else do
    let wanted := if increment == 0 then 0 else (max outer 0).toNat + increment
    let (indent, breaks, c) ← blockBreaks size outer wanted c.skipBreak
    let (b, c) ← readLines literal outer indent size ⟨[], [], breaks, false⟩ c
    let tail := match chomping with
      | .strip => []
      | .clip => b.firstBreak
      | .keep => b.firstBreak ++ b.moreBreaks
    some (b.back.reverse ++ tail, c)

end RowPolicy.Yaml
