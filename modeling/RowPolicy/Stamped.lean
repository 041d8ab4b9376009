import RowPolicy.Claim
import RowPolicy.Json.DraftRecord
import RowPolicy.Rule
import RowPolicy.Stamp.Instant
import RowPolicy.Stamp.Uuid

/-!
# Stored definitions

A stored rule or claim has an identifier that stays when it is redefined, and the times of its
first and last definition. Its JSON form holds these beside the fields of the definition.
-/

namespace RowPolicy

def Uuid.decode (j : Json) : Json.Decoded Uuid := do
  let s ← Json.asText "a formatted UUID string" j
  match Uuid.parse s with
  | .ok u => pure u
  | .error e => throw (.other ("UUID parsing failed: " ++ e.message))

def Instant.decode (j : Json) : Json.Decoded Instant := do
  let s ← Json.asText "an RFC 3339 formatted date and time string" j
  match Instant.parse s with
  | .ok t => pure t
  | .error e => throw (.other e.message)

structure Stamped (α : Type) where
  id : Uuid
  body : α
  createdAt : Instant
  updatedAt : Instant
  deriving Inhabited

namespace Stamped

variable {α : Type}

def fresh (id : Uuid) (now : Instant) (body : α) : Stamped α := ⟨id, body, now, now⟩

/-- Replace the definition, keeping the identifier and the time of creation. -/
def redefine (old : Stamped α) (now : Instant) (body : α) : Stamped α :=
  { old with body := body, updatedAt := now }

/-- The JSON form, given the name of the identifier and the fields of the definition. -/
def toJson (idName : String) (fields : α → Json.Fields) (s : Stamped α) : Json :=
  .obj ((idName, .str s.id.text) :: (fields s.body
    ++ [("created_at", .str s.createdAt.text), ("updated_at", .str s.updatedAt.text)]))

/-- Decode a record, given its name, the name of its identifier and a decoder of the definition. -/
def decode (title idName : String) (decodeBody : Json.Record Json → Json.Decoded α) :
    Json.Draft → Json.Decoded (Stamped α)
  | .obj fields stop => do
    let r := Json.Draft.recordOf fields stop
    let asId := Json.Draft.scalar Uuid.decode
    let asTime := Json.Draft.scalar Instant.decode
    r.check [.of idName asId, .of "created_at" asTime, .of "updated_at" asTime]
    let id ← r.required idName asId
    let createdAt ← r.required "created_at" asTime
    let updatedAt ← r.required "updated_at" asTime
    let rest ← Json.Draft.contents (r.others [idName, "created_at", "updated_at"])
    let body ← decodeBody (Json.recordOf rest)
    pure ⟨id, body, createdAt, updatedAt⟩
  | d => do
    let j ← Json.Draft.lift d.head
    throw (Json.wrongType j title)

end Stamped

abbrev RuleRecord := Stamped Rule

abbrev ClaimRecord := Stamped Claim

namespace RuleRecord

def toJson (r : RuleRecord) : Json := Stamped.toJson "rule_id" Rule.toFields r

def decode : Json.Draft → Json.Decoded RuleRecord :=
  Stamped.decode "struct Rule" "rule_id" (Rule.decodeFields .buffered)

end RuleRecord

namespace ClaimRecord

def toJson (c : ClaimRecord) : Json := Stamped.toJson "claim_id" Claim.toFields c

def decode : Json.Draft → Json.Decoded ClaimRecord :=
  Stamped.decode "struct Claim" "claim_id" Claim.decodeFields

end ClaimRecord

end RowPolicy
