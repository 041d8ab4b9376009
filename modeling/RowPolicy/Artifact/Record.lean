import RowPolicy.Artifact.Render
import RowPolicy.Stamped

/-!
# Stored artifacts

An artifact as the registry keeps it: with the identifier of the definition it was generated for
and the fingerprint of its body.
-/

namespace RowPolicy

structure ArtifactRecord where
  identifier : String
  /-- The definition that the artifact was generated for. -/
  owner : Uuid
  kind : ArtifactKind
  target : String
  operation : Option Operation
  body : ArtifactBody
  fingerprint : String
  createdAt : Instant
  deriving Inhabited

namespace ArtifactRecord

def ofRendered (owner : Uuid) (now : Instant) (r : Rendered) : ArtifactRecord where
  identifier := r.identifier
  owner := owner
  kind := r.kind
  target := r.target
  operation := r.operation
  body := r.body
  fingerprint := r.body.fingerprint
  createdAt := now

def operationJson : Option Operation → Json
  | some op => .str op.text
  | none => .null

def toJson (a : ArtifactRecord) : Json :=
  .obj [("identifier", .str a.identifier), ("owner", .str a.owner.text),
    ("kind", .str a.kind.text), ("target", .str a.target),
    ("operation", operationJson a.operation), ("body", a.body.toJson),
    ("fingerprint", .str a.fingerprint), ("created_at", .str a.createdAt.text)]

def fieldNames : List String :=
  ["identifier", "owner", "kind", "target", "operation", "body", "fingerprint", "created_at"]

def decodeOperation (origin : Origin) : Json.Draft → Json.Decoded (Option Operation)
  | .null => .ok none
  | d => (Json.Draft.named (Operation.decode origin) d).map some

def decodeFields (origin : Origin) (r : Json.Record Json.Draft) :
    Json.Decoded ArtifactRecord := do
  let asString := Json.Draft.scalar Json.asString
  let asId := Json.Draft.scalar Uuid.decode
  let asKind := Json.Draft.named (ArtifactKind.decode origin)
  let asOperation := decodeOperation origin
  let asTime := Json.Draft.scalar Instant.decode
  r.check [.of "identifier" asString, .of "owner" asId, .of "kind" asKind, .of "target" asString,
    .of "operation" asOperation, .of "body" ArtifactBody.decode, .of "fingerprint" asString,
    .of "created_at" asTime]
  let identifier ← r.required "identifier" asString
  let owner ← r.required "owner" asId
  let kind ← r.required "kind" asKind
  let target ← r.required "target" asString
  let operation ← r.optional "operation" asOperation none
  let body ← r.required "body" ArtifactBody.decode
  let fingerprint ← r.required "fingerprint" asString
  let createdAt ← r.required "created_at" asTime
  pure ⟨identifier, owner, kind, target, operation, body, fingerprint, createdAt⟩

def decode (origin : Origin) : Json.Draft → Json.Decoded ArtifactRecord :=
  Json.Draft.asRecord origin "struct GeneratedArtifact" fieldNames (decodeFields origin)

end ArtifactRecord

end RowPolicy
