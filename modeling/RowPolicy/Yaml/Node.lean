import RowPolicy.Yaml.Token

/-!
# YAML documents

The tokens of a text make up at most one document, whose nodes are scalars, sequences and mappings.
A node may have a tag, and an anchor that aliases refer to.
-/

namespace RowPolicy.Yaml

inductive Node where
  | scalar (text : String) (plain : Bool) (tag : Option String) (mark : Mark)
  | sequence (items : List Node) (tag : Option String) (mark : Mark)
  | mapping (entries : List (Node × Node)) (tag : Option String) (mark : Mark)
  /-- The node that was given a number. -/
  | reference (id : Nat) (mark : Mark)
  deriving Inhabited

def Node.mark : Node → Mark
  | .scalar _ _ _ m => m
  | .sequence _ _ m => m
  | .mapping _ _ m => m
  | .reference _ m => m

/-- A document: its node, if it has one, the nodes that aliases stand for, and the number of its
parts. -/
structure Stream where
  root : Option Node := none
  anchors : List (Nat × Node) := []
  size : Nat := 0
  deriving Inhabited

/-! ### Anchors -/

/-- What the parser knows: the tags that handles stand for, and the anchors. -/
structure Known where
  handles : List (String × String) := []
  /-- The number of each name. A name that is used again gets the next free number. -/
  names : List (String × Nat) := []
  /-- The node that each number stands for, by order of appearance; the latest comes first. -/
  places : List (Nat × Nat) := []
  /-- The nodes with anchors by order of appearance. -/
  nodes : List (Nat × Node) := []
  count : Nat := 0
  /-- The number of parts of the document so far. -/
  size : Nat := 0
  deriving Inhabited

namespace Known

def grow (k : Known) (n : Nat) : Known := { k with size := k.size + n }

/-- Note an anchor; the place of its node is returned. -/
def open? (k : Known) : Option String → Known × Option Nat
  | none => (k, none)
  | some name =>
    let id := k.names.length
    ({ k with
        names := (name, id) :: k.names.filter fun n => n.1 != name
        places := (id, k.count) :: k.places
        count := k.count + 1 }, some k.count)

def close (k : Known) (place : Option Nat) (n : Node) : Known :=
  match place with
  | some p => { k with nodes := (p, n) :: k.nodes }
  | none => k

/-- The node that each number stands for. -/
def anchors (k : Known) : List (Nat × Node) :=
  k.places.filterMap fun (id, place) => (k.nodes.lookup place).map fun n => (id, n)

def tag? (k : Known) (handle suffix : String) : Option String :=
  if handle.isEmpty then some suffix else (k.handles.lookup handle).map (· ++ suffix)

end Known

/-! ### Nodes -/

/-- What stands in front of a node: an anchor and a tag. -/
structure Properties where
  anchor : Option String := none
  tag : Option String := none
  deriving Inhabited

def readProperties (k : Known) : List Token → Option (Properties × List Token)
  | ⟨.anchor a, _, _⟩ :: ⟨.tag h s, _, _⟩ :: rest =>
    (k.tag? h s).map fun t => (⟨some a, some t⟩, rest)
  | ⟨.tag h s, _, _⟩ :: ⟨.anchor a, _, _⟩ :: rest =>
    (k.tag? h s).map fun t => (⟨some a, some t⟩, rest)
  | ⟨.anchor a, _, _⟩ :: rest => some (⟨some a, none⟩, rest)
  | ⟨.tag h s, _, _⟩ :: rest => (k.tag? h s).map fun t => (⟨none, some t⟩, rest)
  | ts => some ({}, ts)

def emptyNode (m : Mark) : Node := .scalar "" true none m

def kindOf (ts : List Token) : TokenKind := (ts.head?.map Token.kind).getD .streamEnd

def startOf (ts : List Token) : Mark := (ts.head?.map Token.start).getD {}

/-- What is known after a node, and the tokens behind it. -/
abbrev Rest := Known × List Token

mutual

/-- Read a node. Block collections may stand only where `block` holds, and a sequence that is not
indented only where `loose` holds. -/
def node (block loose : Bool) : Nat → Known → List Token → Option (Node × Rest)
  | 0, _, _ => none
  | fuel + 1, k, ts =>
    match ts with
    | ⟨.reference name, m, _⟩ :: rest => do
      let id ← k.names.lookup name
      some (.reference id m, k.grow 1, rest)
    | _ => do
      let m := startOf ts
      let (p, ts) ← readProperties k ts
      let (k, place) := k.open? p.anchor
      let (n, k, rest) ← content block loose fuel k p m ts
      some (n, k.close place n, rest)

/-- Read a node behind its anchor and tag. -/
def content (block loose : Bool) :
    Nat → Known → Properties → Mark → List Token → Option (Node × Rest)
  | 0, _, _, _, _ => none
  | fuel + 1, k, p, m, ts =>
    match ts with
    | ⟨.scalar text plain, _, _⟩ :: rest =>
      let tag := if p.tag == some "!" then none else p.tag
      some (.scalar text plain tag m, k.grow 1, rest)
    | ⟨.flowSequenceStart, _, _⟩ :: rest => do
      let (items, k, rest) ← flowItems true fuel (k.grow 2) rest
      some (.sequence items p.tag m, k, rest)
    | ⟨.flowMappingStart, _, _⟩ :: rest => do
      let (entries, k, rest) ← flowEntries true fuel (k.grow 2) rest
      some (.mapping entries p.tag m, k, rest)
    | t :: rest =>
      if loose && t.kind == .blockEntry then do
        let (items, k, rest) ← looseItems fuel (k.grow 2) ts
        some (.sequence items p.tag m, k, rest)
      else if block && t.kind == .blockSequenceStart then do
        let (items, k, rest) ← blockItems fuel (k.grow 2) rest
        some (.sequence items p.tag m, k, rest)
      else if block && t.kind == .blockMappingStart then do
        let (entries, k, rest) ← blockEntries fuel (k.grow 2) rest
        some (.mapping entries p.tag m, k, rest)
      else if p.anchor.isSome || p.tag.isSome then some (.scalar "" true p.tag m, k.grow 1, ts)
      else none
    | [] => none

/-- Read a node, or nothing where one of the tokens given follows. -/
def nodeUnless (stops : List TokenKind) (block loose : Bool) (m : Mark) :
    Nat → Known → List Token → Option (Node × Rest)
  | 0, _, _ => none
  | fuel + 1, k, ts =>
    if stops.contains (kindOf ts) then some (emptyNode m, k.grow 1, ts)
    else node block loose fuel k ts

def blockItems : Nat → Known → List Token → Option (List Node × Rest)
  | 0, _, _ => none
  | fuel + 1, k, ts =>
    match ts with
    | ⟨.blockEntry, _, stop⟩ :: rest => do
      let (n, k, rest) ← nodeUnless [.blockEntry, .blockEnd] true false stop fuel k rest
      let (more, k, rest) ← blockItems fuel k rest
      some (n :: more, k, rest)
    | ⟨.blockEnd, _, _⟩ :: rest => some ([], k, rest)
    | _ => none

def looseItems : Nat → Known → List Token → Option (List Node × Rest)
  | 0, _, _ => none
  | fuel + 1, k, ts =>
    match ts with
    | ⟨.blockEntry, _, stop⟩ :: rest => do
      let (n, k, rest) ←
        nodeUnless [.blockEntry, .key, .value, .blockEnd] true false stop fuel k rest
      let (more, k, rest) ← looseItems fuel k rest
      some (n :: more, k, rest)
    | _ => some ([], k, ts)

def blockEntries : Nat → Known → List Token → Option (List (Node × Node) × Rest)
  | 0, _, _ => none
  | fuel + 1, k, ts =>
    match ts with
    | ⟨.key, _, stop⟩ :: rest => do
      let (key, k, rest) ← nodeUnless [.key, .value, .blockEnd] true true stop fuel k rest
      let (value, k, rest) ← blockValue fuel k rest
      let (more, k, rest) ← blockEntries fuel k rest
      some ((key, value) :: more, k, rest)
    | ⟨.blockEnd, _, _⟩ :: rest => some ([], k, rest)
    | _ => none

def blockValue : Nat → Known → List Token → Option (Node × Rest)
  | 0, _, _ => none
  | fuel + 1, k, ts =>
    match ts with
    | ⟨.value, _, stop⟩ :: rest =>
      nodeUnless [.key, .value, .blockEnd] true true stop fuel k rest
    | _ => some (emptyNode (startOf ts), k.grow 1, ts)

def flowItems (first : Bool) : Nat → Known → List Token → Option (List Node × Rest)
  | 0, _, _ => none
  | fuel + 1, k, ts =>
    match ts with
    | ⟨.flowSequenceEnd, _, _⟩ :: rest => some ([], k, rest)
    | _ => do
      let ts ← separated first ts
      match ts with
      | ⟨.flowSequenceEnd, _, _⟩ :: rest => some ([], k, rest)
      | ⟨.key, m, _⟩ :: rest => do
        let (entry, k, rest) ← flowPair fuel (k.grow 2) rest
        let (more, k, rest) ← flowItems false fuel k rest
        some (.mapping [entry] none m :: more, k, rest)
      | _ => do
        let (n, k, rest) ← node false false fuel k ts
        let (more, k, rest) ← flowItems false fuel k rest
        some (n :: more, k, rest)

/-- Pass over the separator in front of all items but the first. -/
def separated (first : Bool) (ts : List Token) : Option (List Token) :=
  if first then some ts
  else
    match ts with
    | ⟨.flowEntry, _, _⟩ :: rest => some rest
    | _ => none

/-- Read a key and a value that stand as an item of a flow sequence. A key that is not written
takes the token in its place with it. -/
def flowPair : Nat → Known → List Token → Option ((Node × Node) × Rest)
  | 0, _, _ => none
  | fuel + 1, k, ts => do
    let (key, k, ts) ← if [.value, .flowEntry, .flowSequenceEnd].contains (kindOf ts) then
        some (emptyNode ((ts.head?.map Token.stop).getD {}), k.grow 1, ts.drop 1)
      else node false false fuel k ts
    match ts with
    | ⟨.value, _, _⟩ :: rest => do
      let (value, k, rest) ←
        nodeUnless [.flowEntry, .flowSequenceEnd] false false (startOf rest) fuel k rest
      some ((key, value), k, rest)
    | _ => some ((key, emptyNode (startOf ts)), k.grow 1, ts)

def flowEntries (first : Bool) : Nat → Known → List Token → Option (List (Node × Node) × Rest)
  | 0, _, _ => none
  | fuel + 1, k, ts =>
    match ts with
    | ⟨.flowMappingEnd, _, _⟩ :: rest => some ([], k, rest)
    | _ => do
      let ts ← separated first ts
      match ts with
      | ⟨.flowMappingEnd, _, _⟩ :: rest => some ([], k, rest)
      | ⟨.key, _, _⟩ :: rest => do
        let (key, k, rest) ← nodeUnless [.value, .flowEntry, .flowMappingEnd] false false
          (startOf rest) fuel k rest
        let (value, k, rest) ← flowValue fuel k rest
        let (more, k, rest) ← flowEntries false fuel k rest
        some ((key, value) :: more, k, rest)
      | _ => do
        let (key, k, rest) ← node false false fuel k ts
        let (more, k, rest') ← flowEntries false fuel (k.grow 1) rest
        some ((key, emptyNode (startOf rest)) :: more, k, rest')

def flowValue : Nat → Known → List Token → Option (Node × Rest)
  | 0, _, _ => none
  | fuel + 1, k, ts =>
    match ts with
    | ⟨.value, _, _⟩ :: rest =>
      nodeUnless [.flowEntry, .flowMappingEnd] false false (startOf rest) fuel k rest
    | _ => some (emptyNode (startOf ts), k.grow 1, ts)

end

/-! ### Documents -/

/-- The tags that handles stand for without directives. -/
def standardHandles : List (String × String) := [("!", "!"), ("!!", "tag:yaml.org,2002:")]

def directives (version : Bool) (handles : List (String × String)) :
    List Token → Option (List (String × String) × List Token)
  | ⟨.version major minor, _, _⟩ :: rest =>
    if version || major != 1 || !(minor == 1 || minor == 2) then none
    else directives true handles rest
  | ⟨.tagDirective handle uri, _, _⟩ :: rest =>
    if (handles.lookup handle).isSome then none
    else directives version ((handle, uri) :: handles) rest
  | ts => some (handles, ts)

def skipEnds (ts : List Token) : List Token := ts.dropWhile fun t => t.kind == .documentEnd

/-- Whether a document is not written although it is started. -/
def isBare (kind : TokenKind) : Bool :=
  match kind with
  | .version _ _ => true
  | .tagDirective _ _ => true
  | .documentStart => true
  | .documentEnd => true
  | .streamEnd => true
  | _ => false

/-- Whether a document is started by a directive or a mark. -/
def isExplicit (kind : TokenKind) : Bool := isBare kind && kind != .documentEnd

/-- Read the node of a document; nothing but its end may follow. -/
def documentNode (fuel : Nat) (handles : List (String × String)) (ts : List Token) :
    Option Stream := do
  let known : Known := { handles := handles ++ standardHandles }
  let (n, k, rest) ← node true false fuel known ts
  if kindOf (skipEnds rest) == .streamEnd then some ⟨some n, k.anchors, k.size⟩ else none

def parse (text : String) : Option Stream := do
  let ts ← tokens text
  let fuel := 8 * (ts.length + 1)
  if kindOf ts == .streamEnd then some {}
  else if isExplicit (kindOf ts) then do
    let (handles, ts) ← directives false [] ts
    match ts with
    | ⟨.documentStart, _, _⟩ :: rest =>
      if isBare (kindOf rest) then
        if kindOf (skipEnds rest) == .streamEnd then some ⟨some (emptyNode (startOf rest)), [], 1⟩
        else none
      else documentNode fuel handles rest
    | _ => none
  else documentNode fuel [] ts

end RowPolicy.Yaml
