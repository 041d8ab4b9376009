import RowPolicy.Predicate.Basic

/-!
# JSON form of predicates

A node is an object with one key, its kind. The kinds of all nodes are checked before any body, so
that an unknown kind is reported as such.
-/

namespace RowPolicy.Predicate

/-! ### Writing -/

def node (kind : String) (body : Json) : Json := .obj [(kind, body)]

mutual

def toJson : Predicate → Json
  | .literalEq column value =>
    node "literal_eq" (.obj [("column", .str column), ("value", value.toJson)])
  | .identityEq column => node "identity_eq" (.obj [("column", .str column)])
  | .membership column claim =>
    node "membership" (.obj [("column", .str column), ("claim", .str claim)])
  | .propertyCheck column claim property allowed =>
    node "property_check" (.obj [("column", .str column), ("claim", .str claim),
      ("property", .str property), ("allowed_values", .arr (allowed.map Literal.toJson))])
  | .and children => node "and" (.arr (toJsons children))
  | .or children => node "or" (.arr (toJsons children))

def toJsons : List Predicate → List Json
  | [] => []
  | p :: rest => toJson p :: toJsons rest

end

/-! ### Decoding -/

def decodeLiteralEq (r : Json.Record Json) : Json.Decoded Predicate := do
  r.check [.of "column" Json.asString, .of "value" Literal.decode]
  let column ← r.required "column" Json.asString
  let value ← r.required "value" Literal.decode
  pure (.literalEq column value)

def decodeIdentityEq (r : Json.Record Json) : Json.Decoded Predicate := do
  r.check [.of "column" Json.asString]
  let column ← r.required "column" Json.asString
  pure (.identityEq column)

def decodeMembership (r : Json.Record Json) : Json.Decoded Predicate := do
  r.check [.of "column" Json.asString, .of "claim" Json.asString]
  let column ← r.required "column" Json.asString
  let claim ← r.required "claim" Json.asString
  pure (.membership column claim)

def decodePropertyCheck (r : Json.Record Json) : Json.Decoded Predicate := do
  r.check [.of "column" Json.asString, .of "claim" Json.asString, .of "property" Json.asString,
    .of "allowed_values" (Json.asList Literal.decode)]
  let column ← r.required "column" Json.asString
  let claim ← r.required "claim" Json.asString
  let property ← r.required "property" Json.asString
  let allowed ← r.required "allowed_values" (Json.asList Literal.decode)
  pure (.propertyCheck column claim property allowed)

/-- Decode a node that is no connective over an array. -/
def decodeLeaf (origin : Origin) (kind : String) (body : Option Json) : Json.Decoded Predicate :=
  match kind with
  | "literal_eq" =>
    Json.recordBody origin "struct variant PredicateNode::LiteralEq" ["column", "value"]
      decodeLiteralEq body
  | "identity_eq" =>
    Json.recordBody origin "struct variant PredicateNode::IdentityEq" ["column"]
      decodeIdentityEq body
  | "membership" =>
    Json.recordBody origin "struct variant PredicateNode::Membership" ["column", "claim"]
      decodeMembership body
  | "property_check" =>
    Json.recordBody origin "struct variant PredicateNode::PropertyCheck"
      ["column", "claim", "property", "allowed_values"] decodePropertyCheck body
  | _ =>
    if kinds.contains kind then
      match body with
      | none => .error (.invalidType .unitVariant "newtype variant")
      | some j => .error (Json.wrongType j "a sequence")
    else .error (.unknownVariant kind kinds)

mutual

def decode (origin : Origin) : Json → Json.Decoded Predicate
  | .obj [(kind, .arr items)] =>
    match kind with
    | "and" => (decodeAll origin items).map .and
    | "or" => (decodeAll origin items).map .or
    | _ => decodeLeaf origin kind (some (.arr items))
  | j => do
    let (kind, body) ← Json.asVariant origin j
    decodeLeaf origin kind body

def decodeAll (origin : Origin) : List Json → Json.Decoded (List Predicate)
  | [] => .ok []
  | j :: rest => do
    let p ← decode origin j
    let ps ← decodeAll origin rest
    pure (p :: ps)

end

mutual

/-- Check that every node has one known kind, descending through the connectives. -/
def checkKinds : Json → Checked Unit
  | .obj [(kind, .arr items)] =>
    if !kinds.contains kind then .error (.unknownNodeKind kind)
    else if kind == "and" || kind == "or" then checkAllKinds items
    else .ok ()
  | .obj [(kind, _)] => if kinds.contains kind then .ok () else .error (.unknownNodeKind kind)
  | .obj fields => .error (.malformed (.kindCount fields.length))
  | j => .error (.malformed (.notNode j))

def checkAllKinds : List Json → Checked Unit
  | [] => .ok ()
  | j :: rest => do
    checkKinds j
    checkAllKinds rest

end

def parse (j : Json) : Checked Predicate := do
  checkKinds j
  match decode .value j with
  | .ok p => pure p
  | .error e => throw (.malformed (.decode e))

end RowPolicy.Predicate
