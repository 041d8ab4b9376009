import RowPolicy.Proofs.Predicate.Parsing
import RowPolicy.Proofs.Record.Definitions

/-!
# JSON forms of definitions

A definition is decoded from its JSON form as it was, whatever its texts and its depth, if every
literal has a form of its own. Only a real that is not finite has none, and an integer beyond
64 bits has that of a real.
-/

namespace RowPolicy

namespace Literal

/-- A literal that has a JSON form of its own. -/
def hasForm : Literal → Bool
  | .int i => Number.isInt64 i
  | .real x => x.isFinite
  | _ => true

lemma decode_toJson_iff (l : Literal) : decode l.toJson = .ok l ↔ l.hasForm = true := by
  cases l with
  | int i =>
    rw [toJson, decode, hasForm]
    cases Number.isInt64 i <;> simp
  | real x =>
    rw [toJson, hasForm]
    cases x.isFinite <;> simp [decode]
  | _ => exact iff_of_true rfl rfl

lemma asList_toJson_iff (ls : List Literal) :
    Json.asList decode (.arr (ls.map toJson)) = .ok ls ↔ ∀ l ∈ ls, l.hasForm = true := by
  rw [Json.asList]
  induction ls with
  | nil => exact iff_of_true rfl (by simp)
  | cons l ls ih =>
    rw [List.map_cons, List.mapM_cons, List.forall_mem_cons, ← ih, ← decode_toJson_iff]
    constructor
    · intro h
      obtain ⟨l', hl', h⟩ := bind_eq_ok.mp h
      obtain ⟨ls', hls', h⟩ := bind_eq_ok.mp h
      cases h
      exact ⟨hl', hls'⟩
    · rintro ⟨hl, hls⟩
      rw [hl, ok_bind, hls]
      rfl

end Literal

namespace Predicate

variable (origin : Origin)

/-! ### Leaves -/

lemma decode_literalEq_iff (column : String) (value : Literal) :
    decode origin (literalEq column value).toJson = .ok (.literalEq column value) ↔
      value.hasForm = true := by
  rw [toJson, node, decode_leaf, ← Literal.decode_toJson_iff]
  change decodeLiteralEq (Json.recordOf _) = _ ↔ _
  cases hvalue : Literal.decode value.toJson <;>
    simp [decodeLiteralEq, List.lookup_cons, hvalue, error_bind, Except.map]

lemma decode_identityEq (column : String) :
    decode origin (identityEq column).toJson = .ok (.identityEq column) := by
  rw [toJson, node, decode_leaf]
  change decodeIdentityEq (Json.recordOf _) = _
  simp [decodeIdentityEq]

lemma decode_membership (column claim : String) :
    decode origin (membership column claim).toJson = .ok (.membership column claim) := by
  rw [toJson, node, decode_leaf]
  change decodeMembership (Json.recordOf _) = _
  simp [decodeMembership, List.lookup_cons]

lemma decode_propertyCheck_iff (column claim property : String) (allowed : List Literal) :
    decode origin (propertyCheck column claim property allowed).toJson =
      .ok (.propertyCheck column claim property allowed) ↔ ∀ l ∈ allowed, l.hasForm = true := by
  rw [toJson, node, decode_leaf, ← Literal.asList_toJson_iff]
  change decodePropertyCheck (Json.recordOf _) = _ ↔ _
  cases hallowed : Json.asList Literal.decode (.arr (allowed.map Literal.toJson)) <;>
    simp [decodePropertyCheck, List.lookup_cons, hallowed, error_bind, Except.map]

/-! ### Trees -/

mutual

/-- A predicate is decoded as it was exactly if its literals have forms of their own. -/
lemma decode_toJson_iff (p : Predicate) :
    decode origin p.toJson = .ok p ↔ ∀ l ∈ p.literals, l.hasForm = true := by
  match p with
  | .literalEq column value =>
    rw [decode_literalEq_iff, literals, List.forall_mem_singleton]
  | .identityEq column => exact iff_of_true (decode_identityEq origin column) (by simp [literals])
  | .membership column claim =>
    exact iff_of_true (decode_membership origin column claim) (by simp [literals])
  | .propertyCheck column claim property allowed => rw [decode_propertyCheck_iff, literals]
  | .and children | .or children =>
    rw [toJson, node, decode, literals, ← decodeAll_toJsons_iff children, map_eq_ok]
    simp

lemma decodeAll_toJsons_iff (ps : List Predicate) :
    decodeAll origin (toJsons ps) = .ok ps ↔ ∀ l ∈ literalsOfAll ps, l.hasForm = true := by
  match ps with
  | [] => exact iff_of_true (by rw [toJsons, decodeAll]) (by simp [literalsOfAll])
  | p :: rest =>
    rw [toJsons, decodeAll, literalsOfAll, List.forall_mem_append, ← decode_toJson_iff p,
      ← decodeAll_toJsons_iff rest, bind_eq_ok]
    constructor
    · rintro ⟨p', hp, h⟩
      obtain ⟨rest', hrest, h⟩ := bind_eq_ok.mp h
      cases h
      exact ⟨hp, hrest⟩
    · rintro ⟨hp, hrest⟩
      rw [hrest]
      exact ⟨p, hp, rfl⟩

end

mutual

lemma checkKinds_toJson (p : Predicate) : checkKinds p.toJson = .ok () := by
  match p with
  | .literalEq _ _ | .identityEq _ | .membership _ _ | .propertyCheck _ _ _ _ =>
    rw [toJson]
    rfl
  | .and children | .or children =>
    rw [toJson]
    exact checkAllKinds_toJsons children

lemma checkAllKinds_toJsons (ps : List Predicate) : checkAllKinds (toJsons ps) = .ok () := by
  match ps with
  | [] => rw [toJsons]; rfl
  | p :: rest =>
    rw [toJsons, checkAllKinds, checkKinds_toJson p, ok_bind, checkAllKinds_toJsons rest]

end

lemma parse_toJson_iff (p : Predicate) :
    parse p.toJson = .ok p ↔ ∀ l ∈ p.literals, l.hasForm = true := by
  rw [← decode_toJson_iff .value, parse, checkKinds_toJson, ok_bind]
  cases decode .value p.toJson <;> simp [pure, Except.pure, throw, throwThe, MonadExceptOf.throw]

lemma toJson_ne_null (p : Predicate) : p.toJson ≠ .null := by
  cases p <;> rw [toJson] <;> rintro ⟨⟩

end Predicate

namespace Rule

/-- A rule is decoded as it was exactly if the literals of its predicate have forms of their own. -/
lemma decode_toJson_iff (r : Rule) :
    decode r.toJson = .ok r ↔ ∀ p, r.predicate = some p → ∀ l ∈ p.literals, l.hasForm = true := by
  obtain ⟨table, operation, projection, predicate⟩ := r
  have hoperation : Operation.decode .value (.str operation.text) = .ok operation := by
    cases operation <;> rfl
  change decodeFields .value (Json.recordOf _) = _ ↔ _
  cases predicate with
  | none =>
    refine iff_of_true ?_ (by simp)
    cases projection <;> simp [toFields, decodeFields, List.lookup_cons, hoperation]
  | some p =>
    have hpredicate : Json.asOption (Predicate.decode .value) p.toJson =
        (Predicate.decode .value p.toJson).map some := by
      rw [Json.asOption]
      exact p.toJson_ne_null
    simp only [Option.some.injEq, forall_eq']
    rw [← Predicate.decode_toJson_iff .value]
    cases hdecode : Predicate.decode .value p.toJson <;> cases projection <;>
      simp [toFields, decodeFields, List.lookup_cons, hoperation, hpredicate, hdecode, error_bind,
        Except.map]

end Rule

/-- Definitions survive their JSON forms: a predicate and a rule exactly if every literal is an
integer of 64 bits, a finite real or no number, and a claim always. -/
theorem decode_forms :
    (∀ p : Predicate, Predicate.parse p.toJson = .ok p ↔ ∀ l ∈ p.literals, l.hasForm = true) ∧
    (∀ r : Rule, Rule.decode r.toJson = .ok r ↔
      ∀ p, r.predicate = some p → ∀ l ∈ p.literals, l.hasForm = true) ∧
    ∀ c : Claim, Claim.decode c.toJson = .ok c :=
  ⟨Predicate.parse_toJson_iff, Rule.decode_toJson_iff, Claim.decodeFields_toFields⟩

end RowPolicy
