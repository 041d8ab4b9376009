import RowPolicy.Access.Error
import RowPolicy.Artifact.Record

/-!
# Outcomes of administration
-/

namespace RowPolicy

/-- Why an administrative call fails. -/
inductive AdminError where
  | definition (e : DefinitionError)
  /-- The database refuses a view or the query of a claim. -/
  | install (identifier : String) (e : StorageError)
  | store (e : StoreError)
  deriving Inhabited

/-- What the definition of a rule or a claim did. -/
structure Summary where
  owner : Uuid
  /-- The key of the rule or the name of the claim. -/
  subject : String
  artifacts : List ArtifactRecord := []
  /-- The number of artifacts that were replaced. -/
  removed : Nat := 0
  fallbacks : List Fallback := []
  /-- The rules that were compiled again because a claim changed. -/
  recompiled : List RuleKey := []
  deriving Inhabited

/-- The identifiers that a summary shows, in order. -/
def Summary.ids (s : Summary) : List Uuid := s.owner :: s.artifacts.map ArtifactRecord.owner

/-- The JSON form of an artifact in a summary, given the labels of identifiers. -/
def Summary.artifactJson (label : Uuid → String) (a : ArtifactRecord) : Json :=
  .obj [("identifier", .str a.identifier), ("owner", .str (label a.owner)),
    ("kind", .str a.kind.text), ("target", .str a.target),
    ("operation", ArtifactRecord.operationJson a.operation), ("body", a.body.toJson),
    ("fingerprint", .str a.fingerprint)]

def Summary.toJson (label : Uuid → String) (s : Summary) : Json :=
  .obj [("owner", .str (label s.owner)), ("subject", .str s.subject),
    ("artifacts", .arr (s.artifacts.map (artifactJson label))), ("removed", .int s.removed),
    ("fallbacks", Json.texts (s.fallbacks.map Fallback.display)),
    ("recompiled", Json.texts (s.recompiled.map RuleKey.text))]

end RowPolicy
