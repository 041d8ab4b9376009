import RowPolicy.Digest.Sha256
import RowPolicy.Json.DraftRecord

/-!
# Artifact bodies

What is generated for a definition, as SQL text: a view, an accessor with its checks, or a guard.
The fingerprint of a body is the SHA-256 digest of its compact JSON text.
-/

namespace RowPolicy

inductive ArtifactKind where
  | claimView
  | readView
  | readAccessor
  | writeGuard
  deriving DecidableEq, Repr, Inhabited

namespace ArtifactKind

def all : List ArtifactKind := [.claimView, .readView, .readAccessor, .writeGuard]

def text : ArtifactKind → String
  | .claimView => "claim_view"
  | .readView => "read_view"
  | .readAccessor => "read_accessor"
  | .writeGuard => "write_guard"

/-- Whether the artifact is an object of the database. -/
def isView : ArtifactKind → Bool
  | .claimView => true
  | .readView => true
  | _ => false

def ofText? (s : String) : Option ArtifactKind := all.find? fun k => k.text == s

def unknownMessage (s : String) : String := "unknown artifact kind '" ++ s ++ "'"

def decode (origin : Origin) : Json → Json.Decoded ArtifactKind :=
  Json.asNamed origin (all.map fun k => (k.text, k))

end ArtifactKind

/-- A check of an accessor: the SQL takes the candidate value as `?1` and yields whether it
passes. -/
structure RenderedCheck where
  column : String
  reason : String
  sql : String
  deriving DecidableEq, Repr, Inhabited

/-- A condition of a create guard: the SQL is an expression over the new row. -/
structure RenderedCondition where
  label : String
  reason : String
  sql : String
  deriving DecidableEq, Repr, Inhabited

/-- What is generated for a definition. -/
inductive ArtifactBody where
  | view (createSql : String)
  /-- The query takes the parameters as `?1`, `?2` and so on. -/
  | accessor (parameters : List String) (checks : List RenderedCheck) (querySql : String)
  | createGuard (columns : List String) (conditions : List RenderedCondition)
  | restrictGuard (columns : List String) (key : String) (filterSql : String)
  deriving DecidableEq, Repr, Inhabited

/-! ### JSON form -/

def RenderedCheck.toJson (c : RenderedCheck) : Json :=
  .obj [("column", .str c.column), ("reason", .str c.reason), ("sql", .str c.sql)]

def RenderedCondition.toJson (c : RenderedCondition) : Json :=
  .obj [("label", .str c.label), ("reason", .str c.reason), ("sql", .str c.sql)]

def decodeTexts (title first : String) (j : Json) : Json.Decoded (String × String × String) :=
  Json.asRecord .buffered title title [first, "reason", "sql"] (fun r => do
    r.check [.of first Json.asString, .of "reason" Json.asString, .of "sql" Json.asString]
    let a ← r.required first Json.asString
    let b ← r.required "reason" Json.asString
    let c ← r.required "sql" Json.asString
    pure (a, b, c)) j

def RenderedCheck.decode (j : Json) : Json.Decoded RenderedCheck :=
  (decodeTexts "struct RenderedCheck" "column" j).map fun (a, b, c) => ⟨a, b, c⟩

def RenderedCondition.decode (j : Json) : Json.Decoded RenderedCondition :=
  (decodeTexts "struct RenderedCondition" "label" j).map fun (a, b, c) => ⟨a, b, c⟩

namespace ArtifactBody

def toFields : ArtifactBody → Json.Fields
  | .view createSql => [("create_sql", .str createSql)]
  | .accessor parameters checks querySql =>
    [("parameters", Json.texts parameters), ("checks", .arr (checks.map RenderedCheck.toJson)),
      ("query_sql", .str querySql)]
  | .createGuard columns conditions =>
    [("guard", .str "create"), ("columns", Json.texts columns),
      ("conditions", .arr (conditions.map RenderedCondition.toJson))]
  | .restrictGuard columns key filterSql =>
    [("guard", .str "restrict"), ("columns", Json.texts columns), ("key", .str key),
      ("filter_sql", .str filterSql)]

def typeName : ArtifactBody → String
  | .view _ => "view"
  | .accessor _ _ _ => "accessor"
  | .createGuard _ _ => "guard"
  | .restrictGuard _ _ _ => "guard"

def toJson (b : ArtifactBody) : Json := .obj (("type", .str b.typeName) :: b.toFields)

/-- The text that is stored and fingerprinted. -/
def serialized (b : ArtifactBody) : String := b.toJson.compact

def fingerprint (b : ArtifactBody) : String := Sha256.ofText b.serialized

inductive Tag where
  | view
  | accessor
  | guard
  deriving DecidableEq, Repr, Inhabited

/-- Decode one of several names, where other values than texts are not names. -/
def decodeTag {α : Type} (known : List (String × α)) (j : Json) : Json.Decoded α := do
  let s ← Json.asText "variant identifier" j
  match known.lookup s with
  | some a => pure a
  | none => throw (.unknownVariant s (known.map (·.1)))

/-- Decode one of several names, or its place among them. -/
def decodeTagOrIndex {α : Type} (known : List (String × α)) (j : Json) : Json.Decoded α :=
  match j with
  | .int i =>
    if i < 0 then .error (Json.wrongType j "variant identifier")
    else
      match known[i.toNat]? with
      | some (_, a) => .ok a
      | none =>
        .error (.invalidValue (.int i)
          ("variant index 0 <= i < " ++ Number.natText known.length))
  | _ => decodeTag known j

def decodeView : Json → Json.Decoded ArtifactBody :=
  let title := "struct variant ArtifactBody::View"
  Json.asRecord .buffered title title ["create_sql"] fun r => do
    r.check [.of "create_sql" Json.asString]
    let createSql ← r.required "create_sql" Json.asString
    pure (.view createSql)

def decodeAccessor : Json → Json.Decoded ArtifactBody :=
  let title := "struct AccessorArtifact"
  let asChecks := Json.asList RenderedCheck.decode
  Json.asRecord .buffered title title ["parameters", "checks", "query_sql"] fun r => do
    r.check [.of "parameters" Json.asStrings, .of "checks" asChecks,
      .of "query_sql" Json.asString]
    let parameters ← r.required "parameters" Json.asStrings
    let checks ← r.required "checks" asChecks
    let querySql ← r.required "query_sql" Json.asString
    pure (.accessor parameters checks querySql)

def decodeCreateGuard : Json → Json.Decoded ArtifactBody :=
  let title := "struct variant GuardArtifact::Create"
  let asConditions := Json.asList RenderedCondition.decode
  Json.asRecord .buffered title title ["columns", "conditions"] fun r => do
    r.check [.of "columns" Json.asStrings, .of "conditions" asConditions]
    let columns ← r.required "columns" Json.asStrings
    let conditions ← r.required "conditions" asConditions
    pure (.createGuard columns conditions)

def decodeRestrictGuard : Json → Json.Decoded ArtifactBody :=
  let title := "struct variant GuardArtifact::Restrict"
  Json.asRecord .buffered title title ["columns", "key", "filter_sql"] fun r => do
    r.check [.of "columns" Json.asStrings, .of "key" Json.asString,
      .of "filter_sql" Json.asString]
    let columns ← r.required "columns" Json.asStrings
    let key ← r.required "key" Json.asString
    let filterSql ← r.required "filter_sql" Json.asString
    pure (.restrictGuard columns key filterSql)

/-- Decode a guard: its own tag says which one it is. -/
def decodeGuard (j : Json) : Json.Decoded ArtifactBody := do
  let (creates, rest) ← (Json.Draft.ofJson j).splitTag "guard"
    "internally tagged enum GuardArtifact"
    (decodeTagOrIndex [("create", true), ("restrict", false)])
  if creates then decodeCreateGuard rest else decodeRestrictGuard rest

def decode (d : Json.Draft) : Json.Decoded ArtifactBody := do
  let (tag, rest) ← d.splitTag "type" "internally tagged enum ArtifactBody"
    (decodeTag [("view", Tag.view), ("accessor", .accessor), ("guard", .guard)])
  match tag with
  | .view => decodeView rest
  | .accessor => decodeAccessor rest
  | .guard => decodeGuard rest

end ArtifactBody

end RowPolicy
