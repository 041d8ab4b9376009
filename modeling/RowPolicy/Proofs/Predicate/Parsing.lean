import RowPolicy.Predicate.Json
import RowPolicy.Proofs.Json.Decoding

/-!
# Parsing of predicates

A predicate is parsed in two passes over its JSON form, which visit the nodes in the same order:
each before those below it, and those from left to right. The first pass finds the first node that
is no object with one known kind. The second one decodes the bodies. It meets known kinds only, and
its error is about the fields of the first body that is wrong.
-/

namespace RowPolicy

lemma bind_eq_error {ε α β : Type} {x : Except ε α} {f : α → Except ε β} {e : ε} :
    x >>= f = .error e ↔ x = .error e ∨ ∃ a, x = .ok a ∧ f a = .error e := by
  cases x with
  | error e => simp [bind, Except.bind]
  | ok a => simp [bind, Except.bind]

lemma map_eq_error {ε α β : Type} {x : Except ε α} {f : α → β} {e : ε} :
    x.map f = .error e ↔ x = .error e := by
  cases x <;> simp [Except.map]

lemma forM_eq_error {ε α : Type} {f : α → Except ε PUnit} {l : List α} {e : ε} :
    forM l f = .error e ↔ ∃ before a after, l = before ++ a :: after ∧
      (∀ b ∈ before, f b = .ok ()) ∧ f a = .error e := by
  induction l with
  | nil => simp [pure, Except.pure]
  | cons a l ih =>
    rw [List.forM_cons, bind_eq_error, ih]
    constructor
    · rintro (h | ⟨_, h, before, b, after, rfl, hbefore, hb⟩)
      · exact ⟨[], a, l, rfl, by simp, h⟩
      · exact ⟨a :: before, b, after, rfl, List.forall_mem_cons.mpr ⟨h, hbefore⟩, hb⟩
    · rintro ⟨before, b, after, heq, hbefore, hb⟩
      cases before with
      | nil =>
        cases heq
        exact .inl hb
      | cons first before =>
        cases heq
        obtain ⟨hfirst, hbefore⟩ := List.forall_mem_cons.mp hbefore
        exact .inr ⟨(), hfirst, before, b, after, rfl, hbefore, hb⟩

lemma forM_eq_ok {ε α : Type} {f : α → Except ε PUnit} {l : List α} :
    forM l f = .ok () ↔ ∀ a ∈ l, f a = .ok () := by
  induction l with
  | nil => simp [pure, Except.pure]
  | cons a l ih => rw [List.forM_cons, bind_eq_ok, exists_unit, ih, List.forall_mem_cons]

/-! ### Errors about the body of a node -/

namespace DecodeError

/-- An error about the value of a field: it has a wrong type or is no literal. -/
def IsOfValue : DecodeError → Prop
  | .invalidType _ _ => True
  | .noVariant name => name = "Literal"
  | _ => False

/-- An error about a body with fields of the given names: it is no record, a field is missing or
given twice, or the value of a field is wrong. -/
def IsOfBody (names : List String) : DecodeError → Prop
  | .missingField name => name ∈ names
  | .duplicateField name => name ∈ names
  | e => e.IsOfValue

lemma IsOfValue.isOfBody {e : DecodeError} (h : e.IsOfValue) (names : List String) :
    e.IsOfBody names := by
  cases e <;> first | exact h | cases h

end DecodeError

namespace Json

variable {α β : Type} {decode : Json → Decoded α} {e : DecodeError} {name : String} {a : α}
  {names : List String} {fields : Fields} {checks : List (FieldCheck Json)}

/-- A decoder of values whose errors are about values. -/
def FailsOnValue (decode : Json → Decoded α) : Prop := ∀ j e, decode j = .error e → e.IsOfValue

/-- A decoder of records whose errors are about fields with the given names. -/
def FailsOnBody (names : List String) (decode : Record Json → Decoded α) : Prop :=
  ∀ fields e, decode (recordOf fields) = .error e → e.IsOfBody names

lemma failsOnValue_asString : FailsOnValue asString := by
  intro j e h
  cases j <;> cases h <;> trivial

lemma failsOnValue_literal : FailsOnValue Literal.decode := by
  intro j e h
  cases j <;> cases h <;> rfl

lemma failsOnValue_asList (hdecode : FailsOnValue decode) : FailsOnValue (asList decode) := by
  intro j e h
  cases j with
  | arr items =>
    rw [asList] at h
    induction items with
    | nil => cases h
    | cons item items ih =>
      rw [List.mapM_cons] at h
      obtain h | ⟨a, -, h⟩ := bind_eq_error.mp h
      · exact hdecode item e h
      · obtain h | ⟨as, -, h⟩ := bind_eq_error.mp h
        · exact ih h
        · cases h
  | _ =>
    cases h
    trivial

/-- Checks of fields with the given names whose errors are about values. -/
def AreOfFields (names : List String) (checks : List (FieldCheck Json)) : Prop :=
  ∀ c ∈ checks, c.1 ∈ names ∧ FailsOnValue c.2

lemma areOfFields_nil : AreOfFields names [] := fun _ hc => absurd hc List.not_mem_nil

lemma AreOfFields.cons (hname : name ∈ names) (hdecode : FailsOnValue decode)
    (hchecks : AreOfFields names checks) :
    AreOfFields names (FieldCheck.of name decode :: checks) :=
  List.forall_mem_cons.mpr ⟨⟨hname, fun j e h => hdecode j e (map_eq_error.mp h)⟩, hchecks⟩

/-- Checking the fields one by one finds one that is given twice or has a wrong value. -/
lemma isOfBody_of_scan {seen : List String}
    (hchecks : AreOfFields names checks)
    (h : Record.scan checks (fun _ => .ok ()) seen fields = .error e) : e.IsOfBody names := by
  induction fields generalizing seen with
  | nil => cases h
  | cons field fields ih =>
    rw [scan_cons] at h
    split at h
    next => exact ih h
    next check hcheck =>
      obtain ⟨hname, hvalue⟩ := hchecks _ (mem_of_lookup hcheck)
      split at h
      next =>
        cases h
        exact hname
      next =>
        obtain h | ⟨_, -, h⟩ := bind_eq_error.mp h
        · exact (hvalue _ e h).isOfBody names
        · exact ih h

lemma FailsOnBody.check {next : Record Json → Decoded β}
    (hchecks : AreOfFields names checks) (hnext : FailsOnBody names next) :
    FailsOnBody names fun r => r.check checks >>= fun _ => next r := by
  intro fields e h
  obtain h | ⟨_, -, h⟩ := bind_eq_error.mp h
  · obtain h | ⟨_, -, h⟩ := bind_eq_error.mp h
    · exact isOfBody_of_scan hchecks h
    · cases h
  · exact hnext fields e h

/-- A field that is required may be missing or have a wrong value. -/
lemma FailsOnBody.required {next : α → Record Json → Decoded β} (hname : name ∈ names)
    (hdecode : FailsOnValue decode) (hnext : ∀ a, FailsOnBody names (next a)) :
    FailsOnBody names fun r => r.required name decode >>= fun a => next a r := by
  intro fields e h
  obtain h | ⟨a, -, h⟩ := bind_eq_error.mp h
  · rw [required_eq] at h
    split at h
    next j _ => exact (hdecode j e h).isOfBody names
    next =>
      cases h
      exact hname
  · exact hnext a fields e h

lemma failsOnBody_pure (a : α) : FailsOnBody names fun _ => pure a := by
  intro fields e h
  cases h

/-- The body of an alternative is no record, or one that the decoder of its fields refuses. -/
lemma isOfBody_of_recordBody {decode : Record Json → Decoded α} {title : String}
    {names' : List String} {body : Json} (hdecode : FailsOnBody names decode)
    (h : recordBody .value title names' decode (some body) = .error e) : e.IsOfBody names := by
  cases body with
  | obj fields => exact hdecode fields e h
  | _ =>
    cases h
    trivial

lemma recordBody_eq_ok {decode : Record Json → Decoded α} {title : String} {body : Json}
    (h : recordBody .value title names decode (some body) = .ok a) :
    ∃ fields, body = .obj fields ∧ decode (recordOf fields) = .ok a := by
  cases body with
  | obj fields => exact ⟨fields, rfl, h⟩
  | _ => cases h

/-- The value of a field is decoded. -/
def Gives (fields : Fields) (name : String) (decode : Json → Decoded α) (a : α) : Prop :=
  ∃ j, fields.lookup name = some j ∧ decode j = .ok a

lemma required_eq_ok :
    (recordOf fields).required name decode = .ok a ↔ Gives fields name decode a := by
  rw [required_eq, show (recordOf fields).fields = fields from rfl, Gives]
  cases fields.lookup name <;> simp

end Json

namespace Predicate

/-! ### Nodes -/

/-- A node is an object with one key, which is a known kind. -/
def isNode : Json → Bool
  | .obj [(kind, _)] => kinds.contains kind
  | _ => false

/-- Whether the nodes of a kind have nodes below them. -/
def isConnective (kind : String) : Bool := kind == "and" || kind == "or"

mutual

/-- The nodes of a JSON form, each before those below it. These are the items of the array of a
connective. -/
def visited : Json → List Json
  | .obj [(kind, .arr items)] =>
    .obj [(kind, .arr items)] :: if isConnective kind then visitedOfAll items else []
  | j => [j]

def visitedOfAll : List Json → List Json
  | [] => []
  | j :: rest => visited j ++ visitedOfAll rest

end

/-- The first node that is none. -/
def firstBad? (j : Json) : Option Json := (visited j).find? fun j => !isNode j

def nodeError : Json → DefinitionError
  | .obj [(kind, _)] => .unknownNodeKind kind
  | .obj fields => .malformed (.kindCount fields.length)
  | j => .malformed (.notNode j)

/-- Check that a value is a node, without regard to its body. -/
def checkNode (j : Json) : Checked Unit := if isNode j then .ok () else .error (nodeError j)

/-- Check the body of a node, without regard to the nodes below it. -/
def checkBody : Json → Json.Decoded Unit
  | .obj [(kind, .arr items)] =>
    if isConnective kind then .ok ()
    else (decodeLeaf .value kind (some (.arr items))).map fun _ => ()
  | .obj [(kind, body)] => (decodeLeaf .value kind (some body)).map fun _ => ()
  | _ => .ok ()

lemma visited_single {j : Json} (hj : ∀ kind items, j ≠ .obj [(kind, .arr items)]) :
    visited j = [j] := by
  rw [visited]
  exact hj

lemma checkKinds_single {j : Json} (hj : ∀ kind items, j ≠ .obj [(kind, .arr items)]) :
    checkKinds j = checkNode j := by
  cases j with
  | obj fields =>
    rcases fields with _ | ⟨⟨kind, body⟩, _ | ⟨f, fields⟩⟩
    · rfl
    · cases body with
      | arr items => exact absurd rfl (hj kind items)
      | _ => rfl
    · cases body <;> rfl
  | _ => rfl

lemma checkKinds_arr (kind : String) (items : List Json) :
    checkKinds (.obj [(kind, .arr items)]) = checkNode (.obj [(kind, .arr items)]) >>= fun _ =>
      if isConnective kind then checkAllKinds items else .ok () := by
  rw [checkKinds, checkNode, isNode]
  cases kinds.contains kind <;> rfl

/-- The first pass checks the nodes one after the other. -/
lemma checkKinds_eq (j : Json) : checkKinds j = forM (visited j) checkNode := by
  refine visited.induct (fun j => checkKinds j = forM (visited j) checkNode)
    (fun js => checkAllKinds js = forM (visitedOfAll js) checkNode) ?_ ?_ ?_ ?_ j
  · intro kind items ih
    rw [checkKinds_arr, visited, List.forM_cons]
    cases isConnective kind with
    | false => rfl
    | true =>
      simp only [if_true]
      rw [ih]
  · intro j hj
    rw [checkKinds_single hj, visited_single hj, List.forM_cons]
    cases checkNode j <;> rfl
  · rw [checkAllKinds, visitedOfAll]
    rfl
  · intro j rest hfirst hrest
    rw [checkAllKinds, visitedOfAll, List.forM_append, hfirst, hrest]

/-! ### Predicates that mirror a JSON form -/

mutual

/-- A predicate has the kinds, the fields and the children of a JSON form. -/
def Mirrors : Predicate → Json → Prop
  | .literalEq column value, j => ∃ fields, j = .obj [("literal_eq", .obj fields)] ∧
      Json.Gives fields "column" Json.asString column ∧
      Json.Gives fields "value" Literal.decode value
  | .identityEq column, j => ∃ fields, j = .obj [("identity_eq", .obj fields)] ∧
      Json.Gives fields "column" Json.asString column
  | .membership column claim, j => ∃ fields, j = .obj [("membership", .obj fields)] ∧
      Json.Gives fields "column" Json.asString column ∧
      Json.Gives fields "claim" Json.asString claim
  | .propertyCheck column claim property allowed, j =>
    ∃ fields, j = .obj [("property_check", .obj fields)] ∧
      Json.Gives fields "column" Json.asString column ∧
      Json.Gives fields "claim" Json.asString claim ∧
      Json.Gives fields "property" Json.asString property ∧
      Json.Gives fields "allowed_values" (Json.asList Literal.decode) allowed
  | .and children, j => ∃ items, j = .obj [("and", .arr items)] ∧ MirrorAll children items
  | .or children, j => ∃ items, j = .obj [("or", .arr items)] ∧ MirrorAll children items

def MirrorAll : List Predicate → List Json → Prop
  | [], js => js = []
  | p :: ps, js => ∃ j rest, js = j :: rest ∧ Mirrors p j ∧ MirrorAll ps rest

end

section

variable {fields : Json.Fields} {p : Predicate} {e : DecodeError} {kind : String} {body j : Json}

lemma mirrors_of_literalEq (h : decodeLiteralEq (Json.recordOf fields) = .ok p) :
    p.Mirrors (.obj [("literal_eq", .obj fields)]) := by
  obtain ⟨_, -, h⟩ := bind_eq_ok.mp h
  obtain ⟨column, hcolumn, h⟩ := bind_eq_ok.mp h
  obtain ⟨value, hvalue, h⟩ := bind_eq_ok.mp h
  cases h
  exact ⟨fields, rfl, Json.required_eq_ok.mp hcolumn, Json.required_eq_ok.mp hvalue⟩

lemma mirrors_of_identityEq (h : decodeIdentityEq (Json.recordOf fields) = .ok p) :
    p.Mirrors (.obj [("identity_eq", .obj fields)]) := by
  obtain ⟨_, -, h⟩ := bind_eq_ok.mp h
  obtain ⟨column, hcolumn, h⟩ := bind_eq_ok.mp h
  cases h
  exact ⟨fields, rfl, Json.required_eq_ok.mp hcolumn⟩

lemma mirrors_of_membership (h : decodeMembership (Json.recordOf fields) = .ok p) :
    p.Mirrors (.obj [("membership", .obj fields)]) := by
  obtain ⟨_, -, h⟩ := bind_eq_ok.mp h
  obtain ⟨column, hcolumn, h⟩ := bind_eq_ok.mp h
  obtain ⟨claim, hclaim, h⟩ := bind_eq_ok.mp h
  cases h
  exact ⟨fields, rfl, Json.required_eq_ok.mp hcolumn, Json.required_eq_ok.mp hclaim⟩

lemma mirrors_of_propertyCheck (h : decodePropertyCheck (Json.recordOf fields) = .ok p) :
    p.Mirrors (.obj [("property_check", .obj fields)]) := by
  obtain ⟨_, -, h⟩ := bind_eq_ok.mp h
  obtain ⟨column, hcolumn, h⟩ := bind_eq_ok.mp h
  obtain ⟨claim, hclaim, h⟩ := bind_eq_ok.mp h
  obtain ⟨property, hproperty, h⟩ := bind_eq_ok.mp h
  obtain ⟨allowed, hallowed, h⟩ := bind_eq_ok.mp h
  cases h
  exact ⟨fields, rfl, Json.required_eq_ok.mp hcolumn, Json.required_eq_ok.mp hclaim,
    Json.required_eq_ok.mp hproperty, Json.required_eq_ok.mp hallowed⟩

lemma mirrors_of_decodeLeaf (h : decodeLeaf .value kind (some body) = .ok p) :
    p.Mirrors (.obj [(kind, body)]) := by
  unfold decodeLeaf at h
  split at h
  case h_1 =>
    obtain ⟨fields, rfl, h⟩ := Json.recordBody_eq_ok h
    exact mirrors_of_literalEq h
  case h_2 =>
    obtain ⟨fields, rfl, h⟩ := Json.recordBody_eq_ok h
    exact mirrors_of_identityEq h
  case h_3 =>
    obtain ⟨fields, rfl, h⟩ := Json.recordBody_eq_ok h
    exact mirrors_of_membership h
  case h_4 =>
    obtain ⟨fields, rfl, h⟩ := Json.recordBody_eq_ok h
    exact mirrors_of_propertyCheck h
  case h_5 =>
    split at h <;> cases h

/-! ### The second pass -/

def bodyFields : String → List String
  | "literal_eq" => ["column", "value"]
  | "identity_eq" => ["column"]
  | "membership" => ["column", "claim"]
  | "property_check" => ["column", "claim", "property", "allowed_values"]
  | _ => []

lemma failsOnBody_literalEq : Json.FailsOnBody (bodyFields "literal_eq") decodeLiteralEq :=
  .check (.cons (by decide) Json.failsOnValue_asString <|
      .cons (by decide) Json.failsOnValue_literal Json.areOfFields_nil) <|
    .required (by decide) Json.failsOnValue_asString fun _ =>
    .required (by decide) Json.failsOnValue_literal fun _ => Json.failsOnBody_pure _

lemma failsOnBody_identityEq : Json.FailsOnBody (bodyFields "identity_eq") decodeIdentityEq :=
  .check (.cons (by decide) Json.failsOnValue_asString Json.areOfFields_nil) <|
    .required (by decide) Json.failsOnValue_asString fun _ => Json.failsOnBody_pure _

lemma failsOnBody_membership : Json.FailsOnBody (bodyFields "membership") decodeMembership :=
  .check (.cons (by decide) Json.failsOnValue_asString <|
      .cons (by decide) Json.failsOnValue_asString Json.areOfFields_nil) <|
    .required (by decide) Json.failsOnValue_asString fun _ =>
    .required (by decide) Json.failsOnValue_asString fun _ => Json.failsOnBody_pure _

lemma failsOnBody_propertyCheck :
    Json.FailsOnBody (bodyFields "property_check") decodePropertyCheck :=
  have hallowed := Json.failsOnValue_asList Json.failsOnValue_literal
  .check (.cons (by decide) Json.failsOnValue_asString <|
      .cons (by decide) Json.failsOnValue_asString <|
      .cons (by decide) Json.failsOnValue_asString <|
      .cons (by decide) hallowed Json.areOfFields_nil) <|
    .required (by decide) Json.failsOnValue_asString fun _ =>
    .required (by decide) Json.failsOnValue_asString fun _ =>
    .required (by decide) Json.failsOnValue_asString fun _ =>
    .required (by decide) hallowed fun _ => Json.failsOnBody_pure _

/-- The error in the body of a node of a known kind is about its fields. -/
lemma isOfBody_of_decodeLeaf (hkind : kinds.contains kind = true)
    (h : decodeLeaf .value kind (some body) = .error e) : e.IsOfBody (bodyFields kind) := by
  unfold decodeLeaf at h
  split at h
  case h_1 => exact Json.isOfBody_of_recordBody failsOnBody_literalEq h
  case h_2 => exact Json.isOfBody_of_recordBody failsOnBody_identityEq h
  case h_3 => exact Json.isOfBody_of_recordBody failsOnBody_membership h
  case h_4 => exact Json.isOfBody_of_recordBody failsOnBody_propertyCheck h
  case h_5 =>
    rw [if_pos hkind] at h
    cases h
    trivial

lemma exists_of_isNode (h : isNode j = true) :
    ∃ kind body, j = .obj [(kind, body)] ∧ kinds.contains kind = true := by
  unfold isNode at h
  split at h
  next kind body => exact ⟨kind, body, rfl, h⟩
  next => cases h

lemma checkBody_eq_error (hnode : isNode j = true) (h : checkBody j = .error e) :
    ∃ kind body, j = .obj [(kind, body)] ∧ e.IsOfBody (bodyFields kind) := by
  obtain ⟨kind, body, rfl, hkind⟩ := exists_of_isNode hnode
  refine ⟨kind, body, rfl, ?_⟩
  unfold checkBody at h
  split at h
  next kind items heq =>
    cases heq
    split at h
    next => cases h
    next => exact isOfBody_of_decodeLeaf hkind (map_eq_error.mp h)
  next heq =>
    cases heq
    exact isOfBody_of_decodeLeaf hkind (map_eq_error.mp h)
  next => cases h

lemma eq_of_isConnective (h : isConnective kind = true) : kind = "and" ∨ kind = "or" := by
  simpa [isConnective] using h

lemma decode_arr (items : List Json) (h : isConnective kind = false) :
    decode .value (.obj [(kind, .arr items)]) = decodeLeaf .value kind (some (.arr items)) := by
  have hne : kind ≠ "and" ∧ kind ≠ "or" := by simpa [isConnective] using h
  rw [decode]
  · exact hne.1
  · exact hne.2

lemma decode_body (hbody : ∀ items, body ≠ .arr items) :
    decode .value (.obj [(kind, body)]) = decodeLeaf .value kind (some body) := by
  cases body with
  | arr items => exact absurd rfl (hbody items)
  | _ => rfl

end

lemma map_unit {ε α β : Type} (x : Except ε α) (f : α → β) :
    (x.map f).map (fun _ => ()) = x.map fun _ => () := by
  cases x <;> rfl

/-- The second pass checks the bodies one after the other. -/
lemma decode_eq (j : Json) (h : ∀ j' ∈ visited j, isNode j' = true) :
    (decode .value j).map (fun _ => ()) = forM (visited j) checkBody := by
  refine visited.induct
    (fun j => (∀ j' ∈ visited j, isNode j' = true) →
      (decode .value j).map (fun _ => ()) = forM (visited j) checkBody)
    (fun js => (∀ j' ∈ visitedOfAll js, isNode j' = true) →
      (decodeAll .value js).map (fun _ => ()) = forM (visitedOfAll js) checkBody) ?_ ?_ ?_ ?_ j h
  · -- The items of an array are nodes only under a connective.
    intro kind items ih h
    rw [visited] at h ⊢
    rw [List.forM_cons, checkBody]
    cases hkind : isConnective kind with
    | false =>
      simp only [Bool.false_eq_true, if_false]
      rw [decode_arr items hkind]
      cases decodeLeaf .value kind (some (.arr items)) <;> rfl
    | true =>
      rw [hkind] at h
      simp only [if_true]
      rw [ok_bind, ← ih (List.forall_mem_cons.mp h).2]
      obtain rfl | rfl := eq_of_isConnective hkind <;> exact map_unit _ _
  · -- Everything else is a leaf.
    intro j hj h
    rw [visited_single hj] at h ⊢
    obtain ⟨kind, body, rfl, -⟩ := exists_of_isNode (h j List.mem_cons_self)
    have hbody : ∀ items, body ≠ .arr items := by
      rintro items rfl
      exact hj kind items rfl
    rw [decode_body hbody, List.forM_cons, checkBody]
    · cases decodeLeaf .value kind (some body) <;> rfl
    · exact hbody
  · intro _
    rw [decodeAll, visitedOfAll]
    rfl
  · intro j rest hfirst hrest h
    rw [visitedOfAll, List.forall_mem_append] at h
    rw [decodeAll, visitedOfAll, List.forM_append, ← hfirst h.1, ← hrest h.2]
    cases decode .value j with
    | error e => rfl
    | ok p => cases decodeAll .value rest <;> rfl

lemma mirrors_of_decode (j : Json) {p : Predicate} (h : decode .value j = .ok p)
    (hnodes : ∀ j' ∈ visited j, isNode j' = true) : p.Mirrors j := by
  refine visited.induct
    (fun j => ∀ p, decode .value j = .ok p → (∀ j' ∈ visited j, isNode j' = true) → p.Mirrors j)
    (fun js => ∀ ps, decodeAll .value js = .ok ps → (∀ j' ∈ visitedOfAll js, isNode j' = true) →
      MirrorAll ps js) ?_ ?_ ?_ ?_ j p h hnodes
  · intro kind items ih p h hnodes
    rw [visited] at hnodes
    cases hkind : isConnective kind with
    | false =>
      rw [decode_arr items hkind] at h
      exact mirrors_of_decodeLeaf h
    | true =>
      rw [hkind] at hnodes
      obtain rfl | rfl := eq_of_isConnective hkind
      all_goals
        obtain ⟨ps, hps, rfl⟩ := map_eq_ok.mp h
        exact ⟨items, rfl, ih ps hps (List.forall_mem_cons.mp hnodes).2⟩
  · intro j hj p h hnodes
    rw [visited_single hj] at hnodes
    obtain ⟨kind, body, rfl, -⟩ := exists_of_isNode (hnodes j List.mem_cons_self)
    have hbody : ∀ items, body ≠ .arr items := by
      rintro items rfl
      exact hj kind items rfl
    rw [decode_body hbody] at h
    exact mirrors_of_decodeLeaf h
  · intro ps h _
    cases h
    rfl
  · intro j rest hfirst hrest ps h hnodes
    rw [visitedOfAll, List.forall_mem_append] at hnodes
    rw [decodeAll] at h
    obtain ⟨p, hp, h⟩ := bind_eq_ok.mp h
    obtain ⟨ps', hps', h⟩ := bind_eq_ok.mp h
    cases h
    exact ⟨j, rest, rfl, hfirst p hp hnodes.1, hrest ps' hps' hnodes.2⟩

/-! ### Both passes -/

section

variable {j : Json}

lemma nodeError_eq_unknownNodeKind {kind : String} :
    nodeError j = .unknownNodeKind kind ↔ ∃ body, j = .obj [(kind, body)] := by
  cases j with
  | obj fields => rcases fields with _ | ⟨⟨kind', body⟩, _ | ⟨f, fields⟩⟩ <;> simp [nodeError]
  | _ => simp [nodeError]

lemma nodeError_eq_kindCount {count : Nat} : nodeError j = .malformed (.kindCount count) ↔
    ∃ fields, j = .obj fields ∧ fields.length = count ∧ count ≠ 1 := by
  cases j with
  | obj fields =>
    rcases fields with _ | ⟨⟨kind', body⟩, _ | ⟨f, fields⟩⟩ <;> simp [nodeError] <;> omega
  | _ => simp [nodeError]

lemma nodeError_eq_notNode {j' : Json} : nodeError j = .malformed (.notNode j') ↔
    j = j' ∧ ∀ fields, j ≠ .obj fields := by
  cases j with
  | obj fields => rcases fields with _ | ⟨⟨kind', body⟩, _ | ⟨f, fields⟩⟩ <;> simp [nodeError]
  | _ => simp [nodeError]

end

lemma parse_of_firstBad? {v j : Json} (h : firstBad? v = some j) :
    parse v = .error (nodeError j) := by
  obtain ⟨hj, before, after, hsplit, hbefore⟩ := List.find?_eq_some_iff_append.mp h
  have hchecked : checkKinds v = .error (nodeError j) := by
    rw [checkKinds_eq]
    refine forM_eq_error.mpr ⟨before, j, after, hsplit, fun b hb => ?_, ?_⟩
    · exact if_pos (by simpa using hbefore b hb)
    · exact if_neg (by simpa using hj)
  rw [parse, hchecked, error_bind]

lemma isNode_of_firstBad? {v : Json} (h : firstBad? v = none) :
    ∀ j ∈ visited v, isNode j = true := by
  simpa using List.find?_eq_none.mp h

lemma parse_of_nodes {v : Json} (h : ∀ j ∈ visited v, isNode j = true) :
    parse v = (decode .value v).mapError fun e => .malformed (.decode e) := by
  have hchecked : checkKinds v = .ok () := by
    rw [checkKinds_eq]
    exact forM_eq_ok.mpr fun j hj => if_pos (h j hj)
  rw [parse, hchecked, ok_bind]
  cases decode .value v <;> rfl

/-- An error that is not about a body is that of the first value that is no node. -/
lemma parse_eq_error {v : Json} {error : DefinitionError}
    (herror : ∀ e, error ≠ .malformed (.decode e)) :
    parse v = .error error ↔ ∃ j, firstBad? v = some j ∧ nodeError j = error := by
  cases hbad : firstBad? v with
  | some j =>
    rw [parse_of_firstBad? hbad]
    simp
  | none =>
    rw [parse_of_nodes (isNode_of_firstBad? hbad)]
    refine iff_of_false (fun h => ?_) (by simp)
    cases hdecode : decode .value v with
    | ok p =>
      rw [hdecode] at h
      cases h
    | error e =>
      rw [hdecode] at h
      exact herror e (Except.error.inj h).symm

/-- Nodes of known kinds are parsed, or some body is wrong. -/
lemma parse_cases {v : Json} (hnodes : ∀ j ∈ visited v, isNode j = true) :
    (∃ p, parse v = .ok p ∧ p.Mirrors v) ∨
    ∃ before kind body after e, visited v = before ++ Json.obj [(kind, body)] :: after ∧
      (∀ j ∈ before, checkBody j = .ok ()) ∧ checkBody (.obj [(kind, body)]) = .error e ∧
      e.IsOfBody (bodyFields kind) ∧ parse v = .error (.malformed (.decode e)) := by
  rw [parse_of_nodes hnodes]
  have hbodies := decode_eq v hnodes
  cases hdecode : decode .value v with
  | ok p => exact .inl ⟨p, rfl, mirrors_of_decode v hdecode hnodes⟩
  | error e =>
    rw [hdecode] at hbodies
    obtain ⟨before, j, after, hsplit, hbefore, hj⟩ := forM_eq_error.mp hbodies.symm
    have hnode : isNode j = true := hnodes j (by rw [hsplit]; simp)
    obtain ⟨kind, body, rfl, hbody⟩ := checkBody_eq_error hnode hj
    exact .inr ⟨before, kind, body, after, e, hsplit, hbefore, hj, hbody, rfl⟩

/-- The kinds are judged before the bodies. A parse is about the kind of a node exactly if some node
is no object with one known kind, and then about the first such node in the order of visits: an
unknown kind if it has one key, the count of its keys if it is another object, and the value itself
if it is none. Otherwise a parse yields a predicate that mirrors the nodes, or an error about the
fields of the first body that is wrong. -/
theorem parse_classifies (v : Json) :
    (∀ kind, parse v = .error (.unknownNodeKind kind) ↔
      ∃ body, firstBad? v = some (.obj [(kind, body)])) ∧
    (∀ count, parse v = .error (.malformed (.kindCount count)) ↔
      ∃ fields, firstBad? v = some (.obj fields) ∧ fields.length = count ∧ count ≠ 1) ∧
    (∀ j, parse v = .error (.malformed (.notNode j)) ↔
      firstBad? v = some j ∧ ∀ fields, j ≠ .obj fields) ∧
    (firstBad? v = none →
      (∃ p, parse v = .ok p ∧ p.Mirrors v) ∨
      ∃ before kind body after e, visited v = before ++ .obj [(kind, body)] :: after ∧
        (∀ j ∈ before, checkBody j = .ok ()) ∧ checkBody (.obj [(kind, body)]) = .error e ∧
        e.IsOfBody (bodyFields kind) ∧ parse v = .error (.malformed (.decode e))) := by
  refine ⟨fun kind => ?_, fun count => ?_, fun j => ?_, fun hbad => ?_⟩
  · rw [parse_eq_error (by simp)]
    simp only [nodeError_eq_unknownNodeKind]
    constructor
    · rintro ⟨_, hbad, body, rfl⟩
      exact ⟨body, hbad⟩
    · rintro ⟨body, hbad⟩
      exact ⟨_, hbad, body, rfl⟩
  · rw [parse_eq_error (by simp)]
    simp only [nodeError_eq_kindCount]
    constructor
    · rintro ⟨_, hbad, fields, rfl, hcount⟩
      exact ⟨fields, hbad, hcount⟩
    · rintro ⟨fields, hbad, hcount⟩
      exact ⟨_, hbad, fields, rfl, hcount⟩
  · rw [parse_eq_error (by simp)]
    simp only [nodeError_eq_notNode]
    constructor
    · rintro ⟨_, hbad, rfl, hj⟩
      exact ⟨hbad, hj⟩
    · rintro ⟨hbad, hj⟩
      exact ⟨j, hbad, rfl, hj⟩
  · exact parse_cases (isNode_of_firstBad? hbad)

end Predicate

end RowPolicy
