import RowPolicy.Toml.Word

/-!
# TOML documents

A document is read line by line: headers declare tables, and every other line gives a key its
value. Nothing is said about why a document cannot be read.
-/

namespace RowPolicy.Toml

/-- How deep values may be nested and how many parts a key may have. -/
def depthLimit : Nat := 79

/-! ### White space -/

def dropBlanks (cs : List Char) : List Char := cs.dropWhile isBlank

def dropGap (inComment : Bool) : List Char → Option (List Char)
  | [] => some []
  | '\n' :: rest => dropGap false rest
  | '\r' :: '\n' :: rest => dropGap false rest
  | c :: rest =>
    if inComment then if isTextChar c then dropGap true rest else none
    else if isBlank c then dropGap false rest
    else if c == '#' then dropGap true rest
    else some (c :: rest)

/-- Drop the end of a line, which may hold a comment. -/
def dropLineEnd (cs : List Char) : Option (List Char) :=
  let cs := match dropBlanks cs with
    | '#' :: rest => rest.dropWhile isTextChar
    | cs => cs
  match cs with
  | [] => some []
  | '\n' :: rest => some rest
  | '\r' :: '\n' :: rest => some rest
  | _ => none

/-! ### Keys -/

/-- Whether a character may stand in a key without quotes. -/
def isKeyChar (c : Char) : Bool := c.isAlphanum || c == '_' || c == '-'

def keyPart (cs : List Char) : Option (String × List Char) :=
  match cs with
  | '\x22' :: rest => quotedText [] rest
  | '\x27' :: rest => rawText [] rest
  | _ =>
    match cs.takeWhile isKeyChar with
    | [] => none
    | key => some (String.ofList key, cs.dropWhile isKeyChar)

/-- Read a key of so many parts at most: the parts before the last one, and the last one. -/
def keyParts : Nat → List Char → Option (List String × String × List Char)
  | 0, _ => none
  | n + 1, cs => do
    let (key, rest) ← keyPart (dropBlanks cs)
    match dropBlanks rest with
    | '.' :: rest => do
      let (path, last, rest) ← keyParts n rest
      some (key :: path, last, rest)
    | rest => some ([], key, rest)

def keyOfValue (cs : List Char) : Option (List String × String × List Char) := do
  let (path, key, rest) ← keyParts depthLimit cs
  match rest with
  | '=' :: rest => some (path, key, dropBlanks rest)
  | _ => none

/-! ### Values -/

def textItem (r : Option (String × List Char)) : Option (Item × List Char) :=
  r.map fun (s, rest) => (.text s, rest)

mutual

def value : Nat → Nat → List Char → Option (Item × List Char)
  | 0, _, _ => none
  | fuel + 1, depth, cs =>
    match cs, depth with
    | '\x22' :: '\x22' :: '\x22' :: rest, _ => textItem (quotedLines false [] (dropBreak rest))
    | '\x22' :: rest, _ => textItem (quotedText [] rest)
    | '\x27' :: '\x27' :: '\x27' :: rest, _ => textItem (rawLines [] (dropBreak rest))
    | '\x27' :: rest, _ => textItem (rawText [] rest)
    | '[' :: rest, depth + 1 => listItems fuel depth [] rest
    | '\x7b' :: rest, depth + 1 =>
      match dropBlanks rest with
      | '\x7d' :: rest => some (.inline .empty, rest)
      | rest => inlineEntries fuel depth .empty rest
    | cs, _ => word cs

/-- Read the items of a list, given those before in reverse. -/
def listItems : Nat → Nat → List Item → List Char → Option (Item × List Char)
  | 0, _, _, _ => none
  | fuel + 1, depth, out, cs => do
    match ← dropGap false cs with
    | ']' :: rest => some (.list out.reverse, rest)
    | cs => do
      let (item, rest) ← value fuel depth cs
      match ← dropGap false rest with
      | ',' :: rest => listItems fuel depth (item :: out) rest
      | ']' :: rest => some (.list (item :: out).reverse, rest)
      | _ => none

def inlineEntries : Nat → Nat → Table → List Char → Option (Item × List Char)
  | 0, _, _, _ => none
  | fuel + 1, depth, t, cs => do
    let (path, key, rest) ← keyOfValue cs
    let (item, rest) ← value fuel depth rest
    let t ← t.insert? path key item
    match dropBlanks rest with
    | ',' :: rest => inlineEntries fuel depth t rest
    | '\x7d' :: rest => some (.inline t, rest)
    | _ => none

end

/-! ### Lines -/

/-- What has been read: the whole table, and the path of the table that is being filled. -/
structure Progress where
  root : Table := .empty
  current : List String := []
  deriving Inhabited

def Progress.declare (p : Progress) (declare? : String → Table → Option Table)
    (path : List String) (key : String) : Option Progress := do
  let root ← Table.update? false (declare? key) path p.root
  some ⟨root, path ++ [key]⟩

/-- Add a value to the table that is being filled. -/
def Progress.insert (p : Progress) (path : List String) (key : String) (item : Item) :
    Option Progress := do
  let root ← Table.update? false (Table.insert? path key item) p.current p.root
  some { p with root := root }

def line (fuel : Nat) (p : Progress) (cs : List Char) : Option (Progress × List Char) := do
  let (p, rest) ← match dropBlanks cs with
    | '[' :: '[' :: rest => do
      let (path, key, rest) ← keyParts depthLimit rest
      match rest with
      | ']' :: ']' :: rest => do
        let p ← p.declare Table.declareTables? path key
        some (p, rest)
      | _ => none
    | '[' :: rest => do
      let (path, key, rest) ← keyParts depthLimit rest
      match rest with
      | ']' :: rest => do
        let p ← p.declare Table.declareTable? path key
        some (p, rest)
      | _ => none
    | cs =>
      if cs.isEmpty || cs.head?.any (['\n', '\r', '#'].contains ·) then some (p, cs)
      else do
        let (path, key, rest) ← keyOfValue cs
        let (item, rest) ← value fuel depthLimit rest
        let p ← p.insert path key item
        some (p, rest)
  let rest ← dropLineEnd rest
  some (p, rest)

def lines (fuel : Nat) : Nat → Progress → List Char → Option Table
  | 0, _, _ => none
  | n + 1, p, cs =>
    if cs.isEmpty then some p.root
    else do
      let (p, rest) ← line fuel p cs
      lines fuel n p rest

def parse (s : String) : Option Table :=
  let cs := match s.toList with
    | c :: rest => if c == byteOrderMark then rest else c :: rest
    | [] => []
  lines (2 * cs.length + 2) (cs.length + 1) {} cs

end RowPolicy.Toml
