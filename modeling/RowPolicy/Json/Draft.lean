import RowPolicy.Json.Token

/-!
# JSON drafts

A draft is what a text holds up to its first fault. Reading one never fails: the fault stands in
the tree where a reader that asks for the parts in order meets it, so that a record with a wrong
field before the fault is refused for the field.

The tokens are folded into a draft by a machine with a stack of the containers that are open.
-/

namespace RowPolicy.Json

/-- A JSON tree that may end in a fault. -/
inductive Draft where
  | null
  | bool (b : Bool)
  | number (j : Json)
  | str (s : String)
  | arr (items : List Draft)
  /-- The fields, and the fault met where another key was looked for. -/
  | obj (fields : List (String × Draft)) (stop : Option JsonFault)
  | fault (e : JsonFault)
  deriving Inhabited

namespace Draft

/-- The number of open containers at which a text is refused. -/
def depthLimit : Nat := 128

/-! ### The machine -/

/-- An open container that waits for one of its values. -/
inductive Frame where
  | item (done : List Draft)
  | field (done : List (String × Draft)) (key : String)

/-- What the innermost open container waits for. What is done is kept latest first. -/
inductive Context where
  | value
  | firstItem
  | nextItem (done : List Draft)
  | afterItem (done : List Draft)
  | firstKey
  | nextKey (done : List (String × Draft))
  | colon (done : List (String × Draft)) (key : String)
  | afterField (done : List (String × Draft))

inductive Progress where
  | reading (stack : List Frame) (context : Context)
  | complete (root : Draft)
  | trailing (root : Draft)
  | failed (root : Draft)
  deriving Inhabited

/-- Close the open containers around a last value. -/
def unwind (last : Draft) : List Frame → Draft
  | [] => last
  | .item done :: stack => unwind (.arr (last :: done).reverse) stack
  | .field done key :: stack => unwind (.obj ((key, last) :: done).reverse none) stack

def supply (value : Draft) : List Frame → Progress
  | [] => .complete value
  | .item done :: stack => .reading stack (.afterItem (value :: done))
  | .field done key :: stack => .reading stack (.afterField ((key, value) :: done))

/-- Open a container unless the depth limit is reached. -/
def enter (stack : List Frame) (context : Context) : Progress :=
  if depthLimit ≤ stack.length + 1 then .failed (unwind (.fault .tooDeep) stack)
  else .reading stack context

/-- A token where a value is wanted. -/
def startValue (stack : List Frame) : Token → Progress
  | .null => supply .null stack
  | .bool b => supply (.bool b) stack
  | .number j => supply (.number j) stack
  | .str s => supply (.str s) stack
  | .openArr => enter stack .firstItem
  | .openObj => enter stack .firstKey
  | .malformed _ e => .failed (unwind (.fault e) stack)
  | _ => .failed (unwind (.fault .expectedValue) stack)

/-- The array so far, ended by a fault. -/
def stopItems (stack : List Frame) (done : List Draft) (e : JsonFault) : Progress :=
  .failed (unwind (.arr (.fault e :: done).reverse) stack)

/-- The object so far, ended by a fault. -/
def stopFields (stack : List Frame) (done : List (String × Draft)) (e : JsonFault) : Progress :=
  .failed (unwind (.obj done.reverse (some e)) stack)

/-- A token where a key is wanted. -/
def startKey (stack : List Frame) (done : List (String × Draft)) : Token → Progress
  | .str key => .reading stack (.colon done key)
  | .malformed true e => stopFields stack done e
  | _ => stopFields stack done .keyNotString

def Progress.step (state : Progress) (token : Token) : Progress :=
  match state with
  | .reading stack .value => startValue stack token
  | .reading stack .firstItem =>
    match token with
    | .closeArr => supply (.arr []) stack
    | t => startValue (.item [] :: stack) t
  | .reading stack (.nextItem done) =>
    match token with
    | .closeArr => stopItems stack done .trailingComma
    | t => startValue (.item done :: stack) t
  | .reading stack (.afterItem done) =>
    match token with
    | .closeArr => supply (.arr done.reverse) stack
    | .comma => .reading stack (.nextItem done)
    | _ => stopItems stack done .expectedCommaOrBracket
  | .reading stack .firstKey =>
    match token with
    | .closeObj => supply (.obj [] none) stack
    | t => startKey stack [] t
  | .reading stack (.nextKey done) =>
    match token with
    | .closeObj => stopFields stack done .trailingComma
    | t => startKey stack done t
  | .reading stack (.colon done key) =>
    match token with
    | .colon => .reading (.field done key :: stack) .value
    | _ => .failed (unwind (.obj ((key, .fault .expectedColon) :: done).reverse none) stack)
  | .reading stack (.afterField done) =>
    match token with
    | .closeObj => supply (.obj done.reverse none) stack
    | .comma => .reading stack (.nextKey done)
    | _ => stopFields stack done .expectedCommaOrBrace
  | .complete root => .trailing root
  | .trailing root => .trailing root
  | .failed root => .failed root

def Progress.finish : Progress → Progress
  | .reading stack .value => .failed (unwind (.fault .endInValue) stack)
  | .reading stack .firstItem => stopItems stack [] .endInList
  | .reading stack (.nextItem done) => stopItems stack done .endInValue
  | .reading stack (.afterItem done) => stopItems stack done .endInList
  | .reading stack .firstKey => stopFields stack [] .endInObject
  | .reading stack (.nextKey done) => stopFields stack done .endInValue
  | .reading stack (.colon done key) =>
    .failed (unwind (.obj ((key, .fault .endInObject) :: done).reverse none) stack)
  | .reading stack (.afterField done) => stopFields stack done .endInObject
  | state => state

def run (tokens : List Token) : Progress :=
  (tokens.foldl Progress.step (.reading [] .value)).finish

/-! ### Trees -/

mutual

/-- The value of a draft without faults, else its first fault. Repeated keys are kept. -/
def toJson : Draft → Except JsonFault Json
  | .null => .ok .null
  | .bool b => .ok (.bool b)
  | .number j => .ok j
  | .str s => .ok (.str s)
  | .arr items => (itemsToJson items).map .arr
  | .obj fields stop =>
    match fieldsToJson fields, stop with
    | .ok done, none => .ok (.obj done)
    | .ok _, some e => .error e
    | .error e, _ => .error e
  | .fault e => .error e

def itemsToJson : List Draft → Except JsonFault (List Json)
  | [] => .ok []
  | d :: rest => do
    let j ← toJson d
    let js ← itemsToJson rest
    pure (j :: js)

def fieldsToJson : List (String × Draft) → Except JsonFault (List (String × Json))
  | [] => .ok []
  | (k, d) :: rest => do
    let j ← toJson d
    let js ← fieldsToJson rest
    pure ((k, j) :: js)

end

/-- The value with containers emptied, which is all that a reader of scalars looks at. -/
def head : Draft → Except JsonFault Json
  | .null => .ok .null
  | .bool b => .ok (.bool b)
  | .number j => .ok j
  | .str s => .ok (.str s)
  | .arr _ => .ok (.arr [])
  | .obj _ _ => .ok (.obj [])
  | .fault e => .error e

end Draft

/-- The draft of a text, and whether something follows its value. -/
def draft (text : String) : Draft × Bool :=
  match Draft.run (lex text) with
  | .complete root => (root, false)
  | .trailing root => (root, true)
  | .failed root => (root, false)
  | .reading _ _ => (.fault .endInValue, false)

def parse (text : String) : Except JsonFault Json := do
  let (root, trailing) := draft text
  let value ← root.toJson
  if trailing then throw .trailingCharacters
  pure value.normalize

end RowPolicy.Json
