import RowPolicy.Yaml.Node
import RowPolicy.Yaml.Resolve

/-!
# Decoding of YAML documents

A document is decoded by its shape into a JSON value. Every text may be written as any scalar, and
a list or record that is not written at all is empty. An error names the path to the node that is
wrong and its position.
-/

namespace RowPolicy.Yaml

/-! ### Failures -/

inductive Failure where
  /-- An error whose place is not known yet. -/
  | unplaced (e : DecodeError)
  | placed (e : DecodeError) (path : String) (mark : Mark)
  /-- Too deep, too many aliases, or a number that is too great. -/
  | limit
  deriving Inhabited

/-- A result; the number of aliases that were followed is counted. -/
abbrev Decoding := StateT Nat (Except Failure)

def rootPath : String := "."

/-- The path of a part of a mapping. -/
def keyPath (path key : String) : String := if path == rootPath then key else path ++ "." ++ key

def itemPath (path : String) (i : Nat) : String := path ++ "[" ++ Number.natText i ++ "]"

/-- The path of a value: its key is shown if it is written there as a scalar. -/
def valuePath (path : String) : Node → String
  | .scalar text _ _ _ => keyPath path text
  | _ => keyPath path "?"

/-- Give an error a place unless it has one. -/
def Failure.place (path : String) (mark : Mark) : Failure → Failure
  | .unplaced e => .placed e path mark
  | f => f

def placing {α : Type} (path : String) (mark : Mark) (step : Decoding α) : Decoding α :=
  fun jumps => (step jumps).mapError (Failure.place path mark)

def failAt {α : Type} (path : String) (n : Node) (e : DecodeError) : Decoding α :=
  throw (.placed e path n.mark)

/-! ### Nodes -/

/-- The node that an alias stands for. -/
def Stream.resolve (s : Stream) : Node → Node
  | .reference id m => (s.anchors.lookup id).getD (.reference id m)
  | n => n

/-- The node that an alias stands for. Few aliases may be followed in a small document. -/
def follow (s : Stream) (n : Node) : Decoding Node := do
  match n with
  | .reference _ _ => do
    let jumps ← get
    if s.size * 100 < jumps + 1 then throw .limit
    set (jumps + 1)
  | _ => pure ()
  pure (s.resolve n)

/-- What a node counts as where something else is expected. -/
def wrongNode {α : Type} (path expected : String) (n : Node) : Decoding α :=
  match n with
  | .scalar text plain tag _ =>
    match scalarValue text plain tag with
    | .error e => failAt path n e
    | .ok (.int i) =>
      if isNarrow i then failAt path n (.invalidType (.int i) expected) else throw .limit
    | .ok j => failAt path n (.invalidType (.ofJson j) expected)
  | .sequence _ _ _ => failAt path n (.invalidType .sequence expected)
  | .mapping _ _ _ => failAt path n (.invalidType .map expected)
  | .reference _ _ => throw .limit

/-- Decode a text: any scalar. -/
def text (s : Stream) (path expected : String) (n : Node) : Decoding String := do
  match ← follow s n with
  | .scalar text _ _ _ => pure text
  | n => wrongNode path expected n

def isBlankNode : Node → Bool
  | .scalar text plain _ _ => plain && text.isEmpty
  | _ => false

def Node.tag : Node → Option String
  | .scalar _ _ tag _ => tag
  | .sequence _ tag _ => tag
  | .mapping _ tag _ => tag
  | .reference _ _ => none

/-! ### Values without a shape -/

/-- The value of a scalar node. Numbers that JSON cannot express are null. -/
def scalarJson (path : String) (n : Node) (text : String) (plain : Bool) : Decoding Json :=
  match scalarValue text plain n.tag with
  | .error e => failAt path n e
  | .ok (.int i) => if isNarrow i then pure (.int i) else throw .limit
  | .ok (.real x) => pure (if x.isFinite then .real x else .null)
  | .ok j => pure j

def eachItem {α : Type} (path : String) (step : String → Node → Decoding α) (items : List Node) :
    Decoding (List α) :=
  items.zipIdx.mapM fun (n, i) => step (itemPath path i) n

/-- Decode a JSON value. The keys of mappings are taken as texts. -/
def json (s : Stream) : Nat → String → Node → Decoding Json
  | depth, path, n => do
    let n ← follow s n
    if isOwnTag n.tag then failAt path n (.invalidType .tagged "any valid JSON value")
    else
      match n, depth with
      | .scalar text plain _ _, _ => scalarJson path n text plain
      | .sequence items _ m, depth + 1 =>
        placing path m do
          let js ← eachItem path (json s depth) items
          pure (.arr js)
      | .mapping entries _ m, depth + 1 =>
        placing path m do
          let fields ← entries.zipIdx.foldlM (fun (fields : Json.Fields) entry => do
            let ((k, v), i) := entry
            let key ← text s path (if i == 0 then "a string key" else "a string") k
            let value ← json s depth (valuePath path k) v
            pure (Json.Fields.put key value fields)) []
          pure (.obj fields)
      | _, _ => throw .limit

/-- Whether a value that may be left out is left out. -/
def isAbsent (n : Node) : Decoding Bool :=
  match n with
  | .scalar text plain tag _ =>
    if !plain then pure false
    else if tag == some (standardTag "null") then
      if isNullText text then pure true
      else throw (.unplaced (.invalidValue (.str text) "null"))
    else if tag.isSome then pure false
    else pure (text.isEmpty || isNullText text)
  | _ => pure false

/-- Pass over a value that is looked at later: it must not have tags of its own. -/
def checkContent (s : Stream) : Nat → String → Node → Decoding Unit
  | depth, path, n => do
    let n ← follow s n
    if isOwnTag n.tag then
      failAt path n (.other "untagged and internally tagged enums do not support enum input")
    else
      match n, depth with
      | .scalar text plain _ _, _ => do
        let _ ← scalarJson path n text plain
        pure ()
      | .sequence items _ _, depth + 1 => do
        let _ ← eachItem path (checkContent s depth) items
        pure ()
      | .mapping entries _ _, depth + 1 =>
        entries.forM fun (k, v) => do
          checkContent s depth path k
          checkContent s depth (valuePath path k) v
      | _, _ => throw .limit

/-! ### Values with a shape -/

/-- What a document or a part of it looks like. -/
inductive Shape where
  | text
  | list (item : Shape)
  /-- Fields by name: whether they must be there, and their shapes. -/
  | record (title : String) (fields : List (String × Bool × Shape))
  /-- One of several records with a single text, tried in order. -/
  | choice (title : String) (names : List String)
  /-- Any value, or none. -/
  | optional
  deriving Inhabited

/-- The value of a scalar; any other node counts as null. -/
def scalarOrNull (s : Stream) (n : Node) : Json :=
  match s.resolve n with
  | .scalar text plain tag _ =>
    match scalarValue text plain tag with
    | .ok j => j
    | .error _ => .null
  | _ => .null

/-- Whether an entry holds the field of a choice: its key is the name, or its place among the
fields, which is zero. -/
def isChoiceKey (name : String) (key : Json) : Bool :=
  match key with
  | .str s => s == name
  | .int i => i == 0
  | _ => false

def canName : Json → Bool
  | .str _ => true
  | .int i => 0 ≤ i
  | _ => false

def choiceText (entries : List (Json × Json)) (name : String) : Option String :=
  if !entries.all fun e => canName e.1 then none
  else
    match entries.filter fun e => isChoiceKey name e.1 with
    | [(_, .str s)] => some s
    | _ => none

def choice (s : Stream) (depth : Nat) (path title : String) (names : List String) (n : Node) :
    Decoding Json := do
  checkContent s depth path n
  let entries := match s.resolve n with
    | .mapping entries _ _ => entries.map fun (k, v) => (scalarOrNull s k, scalarOrNull s v)
    | _ => []
  match names.findSome? fun name => (choiceText entries name).map fun t => (name, t) with
  | some (name, t) => pure (.obj [(name, .str t)])
  | none => throw (.unplaced (.noVariant title))

/-- Decode the entries of a record in order; unknown ones are passed over. -/
def recordFields (s : Stream) (decode : Shape → String → Node → Decoding (Option Json))
    (path : String) (fields : List (String × Bool × Shape)) (seen : List String)
    (out : Json.Fields) : List (Node × Node) → Decoding (List String × Json.Fields)
  | [] => pure (seen, out)
  | (k, v) :: rest => do
    let name ← text s path "field identifier" k
    match fields.lookup name with
    | none => recordFields s decode path fields seen out rest
    | some (_, shape) =>
      if seen.contains name then throw (.unplaced (.duplicateField name))
      else do
        let j ← decode shape (valuePath path k) v
        recordFields s decode path fields (name :: seen)
          (match j with
            | some j => out ++ [(name, j)]
            | none => out) rest

def record (s : Stream) (decode : Shape → String → Node → Decoding (Option Json)) (path : String)
    (fields : List (String × Bool × Shape)) (entries : List (Node × Node)) : Decoding Json := do
  let (seen, out) ← recordFields s decode path fields [] [] entries
  match fields.find? fun (name, required, _) => required && !seen.contains name with
  | some (name, _) => throw (.unplaced (.missingField name))
  | none => pure (.obj out)

/-- Decode a node by its shape. Only a value that may be left out can be missing. -/
def shaped (s : Stream) : Nat → Shape → String → Node → Decoding (Option Json)
  | depth, shape, path, n =>
    match shape with
    | .text => do
      let t ← text s path "a string" n
      pure (some (.str t))
    | .list item => do
      let n ← follow s n
      match n, depth with
      | .sequence items _ m, depth + 1 =>
        placing path m do
          let js ← eachItem path (shaped s depth item) items
          pure (some (.arr (js.filterMap id)))
      | .sequence _ _ _, 0 => throw .limit
      | n, _ => if isBlankNode n then pure (some (.arr [])) else wrongNode path "a sequence" n
    | .record title fields => do
      let n ← follow s n
      match n, depth with
      | .mapping entries _ m, depth + 1 =>
        placing path m do
          let j ← record s (shaped s depth) path fields entries
          pure (some j)
      | .mapping _ _ _, 0 => throw .limit
      | n, _ =>
        if isBlankNode n then
          placing path n.mark do
            let j ← record s (fun _ _ _ => throw .limit) path fields []
            pure (some j)
        else wrongNode path title n
    | .choice title names => do
      let j ← choice s depth path title names n
      pure (some j)
    | .optional => do
      let n ← follow s n
      let absent ← isAbsent n
      if absent then pure none
      else do
        let j ← json s depth path n
        pure (some j)

def depthLimit : Nat := 128

/-- Decode a document. One without a node is an empty record. -/
def decode (s : Stream) (shape : Shape) : Except Failure Json := do
  match s.root with
  | none => pure (.obj [])
  | some n =>
    let (j, _) ← (shaped s depthLimit shape rootPath n).run 0
    pure (j.getD .null)

/-! ### Values -/

/-- A text that two nodes share if they are equal. It exists if a node is a value at all: keys are
distinct, numbers are not too great, and tags fit. -/
def signature (s : Stream) : Nat → Node → Decoding String
  | depth, n => do
    let n ← follow s n
    let own := if isOwnTag n.tag then "tag " ++ Text.quoted (n.tag.getD "") else ""
    match n, depth with
    | .scalar text plain tag _, _ =>
      match scalarValue text plain tag with
      | .error _ => throw .limit
      | .ok (.int i) => if isNarrow i then pure (own ++ Number.intText i) else throw .limit
      | .ok (.real x) => pure (own ++ "real " ++ x.jsonText)
      | .ok j => pure (own ++ j.compact)
    | .sequence items _ _, depth + 1 => do
      let parts ← items.mapM (signature s depth)
      pure (own ++ "[" ++ String.intercalate ", " parts ++ "]")
    | .mapping entries _ _, depth + 1 => do
      let parts ← entries.foldlM (fun (parts : List (String × String)) entry => do
        let key ← signature s depth entry.1
        if (parts.lookup key).isSome then throw .limit
        let value ← signature s depth entry.2
        pure ((key, value) :: parts)) []
      pure (own ++ "map "
        ++ String.intercalate ", " (parts.reverse.map fun (k, v) => k ++ ": " ++ v))
    | _, _ => throw .limit

/-- Whether a document is a value on its own. -/
def isValue (s : Stream) : Bool :=
  match s.root with
  | none => true
  | some n =>
    match (signature s depthLimit n).run 0 with
    | .ok _ => true
    | .error _ => false

end RowPolicy.Yaml
