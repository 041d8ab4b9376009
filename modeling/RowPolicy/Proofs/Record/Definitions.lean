import RowPolicy.Proofs.Json.Decoding
import RowPolicy.Proofs.Stamp.Reading
import RowPolicy.Store

/-!
# Definitions read back

A definition is stored as JSON text. A claim holds only texts and is read back as it is. A rule is
read back if its predicate is not too deep and its literals can be read; a real may then be another
one than was written, and everything else is as it was.
-/

namespace RowPolicy

/-! ### Values without numbers -/

namespace Json

lemma tokens_arr_sound (items : List Json) :
    (Json.arr items).tokens.all Token.isSound =
      items.all fun j => j.tokens.all Token.isSound := by
  have hmore : ∀ items, (moreItemsTokens items).all Token.isSound =
      items.all fun j => j.tokens.all Token.isSound := by
    intro items
    induction items with
    | nil => rw [moreItemsTokens]; rfl
    | cons j items ih =>
      rw [moreItemsTokens, List.all_cons, List.all_append, ih, List.all_cons]
      rfl
  rw [tokens, List.all_cons, List.all_append]
  cases items with
  | nil => rw [itemsTokens]; rfl
  | cons j items =>
    rw [itemsTokens, List.all_append, hmore, List.all_cons]
    simp [Token.isSound]

lemma tokens_obj_sound (fields : Fields) :
    (Json.obj fields).tokens.all Token.isSound =
      fields.all fun f => f.2.tokens.all Token.isSound := by
  have hmore : ∀ fields : Fields, (moreFieldsTokens fields).all Token.isSound =
      fields.all fun f => f.2.tokens.all Token.isSound := by
    intro fields
    induction fields with
    | nil => rw [moreFieldsTokens]; rfl
    | cons f fields ih =>
      rw [moreFieldsTokens, List.all_cons, List.all_cons, List.all_cons, List.all_append, ih,
        List.all_cons]
      rfl
  rw [tokens, List.all_cons, List.all_append]
  cases fields with
  | nil => rw [fieldsTokens]; rfl
  | cons f fields =>
    rw [fieldsTokens, List.all_cons, List.all_cons, List.all_append, hmore, List.all_cons]
    simp [Token.isSound]

@[simp] lemma tokens_str_sound (s : String) : (Json.str s).tokens.all Token.isSound = true := rfl

lemma itemsDepth_le {items : List Json} {k : Nat} :
    itemsDepth items ≤ k ↔ ∀ j ∈ items, j.depth ≤ k := by
  induction items with
  | nil => simp [itemsDepth]
  | cons j items ih => rw [itemsDepth, Nat.max_le, ih, List.forall_mem_cons]

lemma fieldsDepth_le {fields : Fields} {k : Nat} :
    fieldsDepth fields ≤ k ↔ ∀ f ∈ fields, f.2.depth ≤ k := by
  induction fields with
  | nil => simp [fieldsDepth]
  | cons f fields ih => rw [fieldsDepth, Nat.max_le, ih, List.forall_mem_cons]

/-- A value of limited depth that is read as it is written, whatever it is part of. -/
structure IsPlain (k : Nat) (j : Json) : Prop where
  sound : j.tokens.all Token.isSound = true
  reread : j.reread = j
  depth : j.depth ≤ k

lemma isPlain_str (k : Nat) (s : String) : (Json.str s).IsPlain k :=
  ⟨rfl, by rw [Json.reread], Nat.zero_le k⟩

lemma isPlain_null (k : Nat) : Json.null.IsPlain k :=
  ⟨rfl, by rw [Json.reread], Nat.zero_le k⟩

lemma isPlain_arr {k : Nat} {items : List Json} (h : ∀ j ∈ items, j.IsPlain k) :
    (Json.arr items).IsPlain (k + 1) where
  sound := by
    rw [tokens_arr_sound]
    exact List.all_eq_true.mpr fun j hj => (h j hj).sound
  reread := by
    rw [Json.reread, rereads_eq]
    exact congrArg _ ((List.map_congr_left fun j hj => (h j hj).reread).trans (List.map_id _))
  depth := by
    rw [Json.depth]
    exact Nat.succ_le_succ (itemsDepth_le.mpr fun j hj => (h j hj).depth)

lemma isPlain_obj {k : Nat} {fields : Fields} (h : ∀ f ∈ fields, f.2.IsPlain k) :
    (Json.obj fields).IsPlain (k + 1) where
  sound := by
    rw [tokens_obj_sound]
    exact List.all_eq_true.mpr fun f hf => (h f hf).sound
  reread := by
    rw [Json.reread, rereadFields_eq]
    refine congrArg _ ((List.map_congr_left fun f hf => ?_).trans (List.map_id _))
    rw [(h f hf).reread]
    rfl
  depth := by
    rw [Json.depth]
    exact Nat.succ_le_succ (fieldsDepth_le.mpr fun f hf => (h f hf).depth)

lemma isPlain_texts (k : Nat) (ss : List String) : (texts ss).IsPlain (k + 1) :=
  isPlain_arr fun j hj => by
    obtain ⟨s, -, rfl⟩ := List.mem_map.mp hj
    exact isPlain_str k s

end Json

/-! ### Literals and predicates -/

namespace Literal

/-- A literal as it is read back. -/
def reread (l : Literal) : Literal :=
  match decode l.toJson.reread with
  | .ok l' => l'
  | .error _ => .null

/-- The text of a literal can be read. -/
def isReadable (l : Literal) : Bool := l.toJson.tokens.all Json.Token.isSound

lemma json_isNumber (n : Json.Numeral) : ∃ l, decode n.json = .ok l := by
  unfold Json.Numeral.json Json.Numeral.value
  cases n.intValue? with
  | some i => exact ⟨_, rfl⟩
  | none =>
    cases n.realValue with
    | ok x => exact ⟨.real x, rfl⟩
    | error e => exact ⟨.null, rfl⟩

lemma decode_reread (l : Literal) : decode l.toJson.reread = .ok l.reread := by
  have hdecode : ∃ l', decode l.toJson.reread = .ok l' := by
    cases l with
    | null => exact ⟨.null, by rw [toJson, Json.reread]; rfl⟩
    | bool b => exact ⟨.bool b, by rw [toJson, Json.reread]; rfl⟩
    | text s => exact ⟨.text s, by rw [toJson, Json.reread]; rfl⟩
    | int i =>
      rw [toJson, Json.reread]
      exact json_isNumber _
    | real x =>
      rw [toJson]
      split
      next h =>
        rw [Json.reread, if_pos h]
        exact json_isNumber _
      next => exact ⟨.null, by rw [Json.reread]; rfl⟩
  obtain ⟨l', hl'⟩ := hdecode
  rw [reread, hl']

lemma depth_toJson (l : Literal) : l.toJson.depth = 0 := by
  cases l with
  | real x =>
    rw [toJson]
    split <;> rfl
  | _ => rfl

end Literal

namespace Predicate

mutual

/-- A predicate as it is read back. -/
def reread : Predicate → Predicate
  | .literalEq column value => .literalEq column value.reread
  | .identityEq column => .identityEq column
  | .membership column claim => .membership column claim
  | .propertyCheck column claim property allowed =>
    .propertyCheck column claim property (allowed.map Literal.reread)
  | .and children => .and (rereadAll children)
  | .or children => .or (rereadAll children)

def rereadAll : List Predicate → List Predicate
  | [] => []
  | p :: rest => reread p :: rereadAll rest

end

mutual

def literals : Predicate → List Literal
  | .literalEq _ value => [value]
  | .identityEq _ => []
  | .membership _ _ => []
  | .propertyCheck _ _ _ allowed => allowed
  | .and children => literalsOfAll children
  | .or children => literalsOfAll children

def literalsOfAll : List Predicate → List Literal
  | [] => []
  | p :: rest => literals p ++ literalsOfAll rest

end

mutual

/-- The number of containers around the deepest part of a predicate's JSON form. -/
def depth : Predicate → Nat
  | .propertyCheck _ _ _ _ => 3
  | .and children => depths children + 2
  | .or children => depths children + 2
  | _ => 2

def depths : List Predicate → Nat
  | [] => 0
  | p :: rest => max (depth p) (depths rest)

end

def IsReadable (p : Predicate) : Prop :=
  (∀ l ∈ p.literals, l.isReadable = true) ∧ p.depth + 1 < Json.Draft.depthLimit

instance (p : Predicate) : Decidable p.IsReadable := inferInstanceAs (Decidable (_ ∧ _))

mutual

lemma depth_toJson (p : Predicate) : p.toJson.depth = p.depth := by
  match p with
  | .literalEq column value =>
    simp [toJson, node, Json.depth, Json.fieldsDepth, Literal.depth_toJson, depth]
  | .identityEq column => rfl
  | .membership column claim => rfl
  | .propertyCheck column claim property allowed =>
    have hallowed : Json.itemsDepth (allowed.map Literal.toJson) = 0 := by
      refine Nat.le_zero.mp (Json.itemsDepth_le.mpr fun j hj => ?_)
      obtain ⟨l, -, rfl⟩ := List.mem_map.mp hj
      exact l.depth_toJson.le
    simp [toJson, node, Json.depth, Json.fieldsDepth, hallowed, depth]
  | .and children | .or children =>
    simp [toJson, node, Json.depth, Json.fieldsDepth, depths_toJsons children, depth]

lemma depths_toJsons (ps : List Predicate) : Json.itemsDepth (toJsons ps) = depths ps := by
  match ps with
  | [] => rw [toJsons, Json.itemsDepth, depths]
  | p :: rest => rw [toJsons, Json.itemsDepth, depths, depth_toJson p, depths_toJsons rest]

end

mutual

lemma tokens_toJson (p : Predicate) :
    p.toJson.tokens.all Json.Token.isSound = p.literals.all Literal.isReadable := by
  match p with
  | .literalEq column value =>
    simp [toJson, node, Json.tokens_obj_sound, literals, Literal.isReadable]
  | .identityEq column => rfl
  | .membership column claim => rfl
  | .propertyCheck column claim property allowed =>
    simp [toJson, node, Json.tokens_obj_sound, Json.tokens_arr_sound, literals, List.all_map]
    rfl
  | .and children | .or children =>
    simp [toJson, node, Json.tokens_obj_sound, Json.tokens_arr_sound, literals,
      tokens_toJsons children]

lemma tokens_toJsons (ps : List Predicate) :
    ((toJsons ps).all fun j => j.tokens.all Json.Token.isSound) =
      (literalsOfAll ps).all Literal.isReadable := by
  match ps with
  | [] => rw [toJsons, literalsOfAll]; rfl
  | p :: rest =>
    rw [toJsons, literalsOfAll, List.all_cons, List.all_append, tokens_toJson p,
      tokens_toJsons rest]

end

lemma decode_leaf (origin : Origin) (kind : String) (fields : Json.Fields) :
    decode origin (.obj [(kind, .obj fields)]) = decodeLeaf origin kind (some (.obj fields)) := by
  rw [decode]
  · rfl
  · intro kind items h
    cases h

mutual

/-- What is read of a predicate's JSON form is decoded as what is read of the predicate. -/
lemma decode_reread (p : Predicate) : decode .buffered p.toJson.reread = .ok p.reread := by
  -- A leaf is an object with one field; its record is decoded by looking up the keys.
  match p with
  | .literalEq column value =>
    have hjson : (literalEq column value).toJson.reread = .obj [("literal_eq",
        .obj [("column", .str column), ("value", value.toJson.reread)])] := by
      simp [toJson, node, Json.reread, Json.rereadFields]
    rw [hjson, decode_leaf]
    change decodeLiteralEq (Json.recordOf _) = _
    simp [decodeLiteralEq, Literal.decode_reread, List.lookup_cons, reread]
  | .identityEq column =>
    have hjson : (identityEq column).toJson.reread = .obj [("identity_eq",
        .obj [("column", .str column)])] := by
      simp [toJson, node, Json.reread, Json.rereadFields]
    rw [hjson, decode_leaf]
    change decodeIdentityEq (Json.recordOf _) = _
    simp [decodeIdentityEq, reread]
  | .membership column claim =>
    have hjson : (membership column claim).toJson.reread = .obj [("membership",
        .obj [("column", .str column), ("claim", .str claim)])] := by
      simp [toJson, node, Json.reread, Json.rereadFields]
    rw [hjson, decode_leaf]
    change decodeMembership (Json.recordOf _) = _
    simp [decodeMembership, List.lookup_cons, reread]
  | .propertyCheck column claim property allowed =>
    have hjson : (propertyCheck column claim property allowed).toJson.reread =
        .obj [("property_check", .obj [("column", .str column), ("claim", .str claim),
          ("property", .str property),
          ("allowed_values", .arr (allowed.map fun l => l.toJson.reread))])] := by
      simp [toJson, node, Json.reread, Json.rereadFields, Json.rereads_eq]
    have hallowed : Json.asList Literal.decode (.arr (allowed.map fun l => l.toJson.reread)) =
        .ok (allowed.map Literal.reread) := Json.asList_map fun l _ => Literal.decode_reread l
    rw [hjson, decode_leaf]
    change decodePropertyCheck (Json.recordOf _) = _
    simp [decodePropertyCheck, hallowed, List.lookup_cons, reread]
  | .and children | .or children =>
    rw [toJson, node, reread, Json.reread, Json.rereadFields, Json.rereadFields, Json.reread,
      decode, decodeAll_rereads children]
    rfl

lemma decodeAll_rereads (ps : List Predicate) :
    decodeAll .buffered (Json.rereads (toJsons ps)) = .ok (rereadAll ps) := by
  match ps with
  | [] => rw [toJsons, Json.rereads, decodeAll, rereadAll]
  | p :: rest =>
    rw [toJsons, Json.rereads, decodeAll, decode_reread p, decodeAll_rereads rest, rereadAll]
    rfl

end

lemma toJson_reread_eq (p : Predicate) : ∃ fields, p.toJson.reread = .obj fields := by
  cases p <;> exact ⟨_, by rw [toJson, node, Json.reread]⟩

end Predicate

/-! ### Rules and claims -/

namespace Rule

/-- A rule as it is read back. -/
def reread (r : Rule) : Rule := { r with predicate := r.predicate.map Predicate.reread }

def IsReadable (r : Rule) : Prop := ∀ p, r.predicate = some p → p.IsReadable

lemma sublist_toFields (r : Rule) : (r.toFields.map (·.1)).Sublist fieldNames := by
  unfold toFields
  cases r.predicate <;> cases r.projection <;> simp [fieldNames]

lemma decodeFields_reread (r : Rule) :
    decodeFields .buffered (Json.recordOf (Json.rereadFields r.toFields)) = .ok r.reread := by
  obtain ⟨table, operation, projection, predicate⟩ := r
  have hoperation : Operation.decode .buffered (.str operation.text) = .ok operation := by
    cases operation <;> rfl
  cases predicate with
  | none =>
    cases projection <;>
      simp [toFields, Json.rereadFields_eq, decodeFields, Json.reread, List.lookup_cons, reread,
        hoperation]
  | some p =>
    have hpredicate : Json.asOption (Predicate.decode .buffered) p.toJson.reread =
        .ok (some p.reread) := by
      have hdecode := p.decode_reread
      obtain ⟨fields, hfields⟩ := p.toJson_reread_eq
      rw [hfields] at hdecode ⊢
      rw [Json.asOption, hdecode]
      · rfl
      · nofun
    cases projection <;>
      simp [toFields, Json.rereadFields_eq, decodeFields, Json.reread, List.lookup_cons, reread,
        hoperation, hpredicate]

lemma tokens_toFields (r : Rule) :
    (r.toFields.all fun f => f.2.tokens.all Json.Token.isSound) = true ↔
      ∀ p, r.predicate = some p → ∀ l ∈ p.literals, l.isReadable = true := by
  have hprojection := (Json.isPlain_texts 0 r.projection).sound
  unfold toFields
  cases r.predicate <;> split <;> simp [hprojection, Predicate.tokens_toJson]

lemma depth_toFields (r : Rule) {k : Nat} (hk : 1 ≤ k) :
    Json.fieldsDepth r.toFields ≤ k ↔ ∀ p, r.predicate = some p → p.depth ≤ k := by
  have hprojection := (Json.isPlain_texts 0 r.projection).depth.trans hk
  rw [Json.fieldsDepth_le]
  unfold toFields
  cases r.predicate <;> split <;>
    simp [Json.depth, hprojection, Predicate.depth_toJson]

end Rule

namespace Claim

lemma sublist_toFields (c : Claim) : (c.toFields.map (·.1)).Sublist fieldNames := by
  unfold toFields
  cases c.attributes <;> simp [fieldNames]

lemma isPlain_toFields (c : Claim) : ∀ f ∈ c.toFields, f.2.IsPlain 1 := by
  have hsource : c.source.toJson.IsPlain 1 := by
    cases c.source <;> exact Json.isPlain_obj (by simp [Json.isPlain_str])
  unfold toFields
  split <;> simp [Json.isPlain_str, Json.isPlain_texts, hsource]

lemma decodeFields_toFields (c : Claim) : decodeFields (Json.recordOf c.toFields) = .ok c := by
  obtain ⟨name, source, principalColumn, valueColumn, attributes⟩ := c
  have hsource : ClaimSource.decode source.toJson = .ok source := by
    cases source <;> rfl
  cases attributes <;> simp [toFields, decodeFields, List.lookup_cons, hsource]

end Claim

/-! ### Stamped definitions -/

lemma Json.Draft.scalar_str {α : Type} (decode : Json → Decoded α) (s : String) :
    scalar decode (.str s) = decode (.str s) := rfl

namespace Stamped

open Json

variable {α : Type} {title idName : String} {decodeBody : Record Json → Decoded α}
  {fields : α → Fields} {s : Stamped α}

lemma decode_uuid (u : Uuid) : Uuid.decode (.str u.text) = .ok u := by
  rw [Uuid.decode, asText, ok_bind, Uuid.parse_text]
  rfl

lemma decode_instant {t : Instant} (h : t.IsRegular) : Instant.decode (.str t.text) = .ok t := by
  rw [Instant.decode, asText, ok_bind, Instant.parse_text h]
  rfl

lemma thorough_id : Draft.Thorough (Draft.scalar Uuid.decode) :=
  Draft.thorough_scalar fun j u hu => by
    obtain ⟨s, hs, -⟩ := bind_eq_ok.mp hu
    exact ⟨s, Draft.str_of_asText hs⟩

lemma thorough_time : Draft.Thorough (Draft.scalar Instant.decode) :=
  Draft.thorough_scalar fun j t ht => by
    obtain ⟨s, hs, -⟩ := bind_eq_ok.mp ht
    exact ⟨s, Draft.str_of_asText hs⟩

lemma thorough_decode : Draft.Thorough (Stamped.decode title idName decodeBody) := by
  intro d a ha
  cases d with
  | obj fields stop =>
    obtain ⟨_, hcheck, -⟩ := bind_eq_ok.mp ha
    refine Draft.isWhole_of_check ?_ hcheck
    simp only [List.forall_mem_cons]
    exact ⟨thorough_id.check _, thorough_time.check _, thorough_time.check _, by simp⟩
  | _ =>
    obtain ⟨j, -, ha⟩ := bind_eq_ok.mp ha
    cases ha

section Decode

variable (hnames : (idName :: ((fields s.body).map (·.1) ++ ["created_at", "updated_at"])).Nodup)

def drafts (idName : String) (fields : α → Fields) (s : Stamped α) : List (String × Draft) :=
  (idName, .str s.id.text) :: (Draft.ofFields (rereadFields (fields s.body))
    ++ [("created_at", Draft.str s.createdAt.text), ("updated_at", .str s.updatedAt.text)])

lemma ofJson_reread : Draft.ofJson (s.toJson idName fields).reread =
    .obj (s.drafts idName fields) none := by
  rw [toJson, reread, Draft.ofJson, Draft.ofFields_eq, rereadFields_eq, List.map_cons,
    List.map_append, List.map_cons, List.map_append, ← rereadFields_eq, ← Draft.ofFields_eq]
  simp [drafts, reread, Draft.ofJson]

include hnames in
lemma nodup_drafts : ((s.drafts idName fields).map (·.1)).Nodup := by
  have hmap : (s.drafts idName fields).map (·.1) =
      idName :: ((fields s.body).map (·.1) ++ ["created_at", "updated_at"]) := by
    simp [drafts, Draft.ofFields_eq, rereadFields_eq]
  rw [hmap]
  exact hnames

include hnames in
/-- A field of the body has another name than the stamps and can be read in full. -/
lemma body_drafts : ∀ f ∈ Draft.ofFields (rereadFields (fields s.body)),
    f.1 ∉ [idName, "created_at", "updated_at"] ∧ ∃ j, f.2 = Draft.ofJson j := by
  intro f hf
  rw [Draft.ofFields_eq, rereadFields_eq, List.map_map] at hf
  obtain ⟨g, hg, rfl⟩ := List.mem_map.mp hf
  refine ⟨fun hmem => ?_, g.2.reread, rfl⟩
  have hname : g.1 ∈ (fields s.body).map (·.1) := List.mem_map.mpr ⟨g, hg, rfl⟩
  obtain ⟨hid, hrest⟩ := List.nodup_cons.mp hnames
  obtain heq | hmem := List.mem_cons.mp hmem
  · have hid' : g.1 = idName := heq
    exact hid (List.mem_append_left _ (hid' ▸ hname))
  · exact (List.nodup_append.mp hrest).2.2 _ hname _ hmem rfl

include hnames in
lemma others_drafts : (Draft.recordOf (s.drafts idName fields) none).others
    [idName, "created_at", "updated_at"] = Draft.ofFields (rereadFields (fields s.body)) := by
  have hbody : (Draft.ofFields (rereadFields (fields s.body))).filter
      (fun f => !([idName, "created_at", "updated_at"].contains f.1)) =
        Draft.ofFields (rereadFields (fields s.body)) :=
    List.filter_eq_self.mpr fun f hf => by
      rw [Bool.not_eq_true', List.contains_eq_mem, decide_eq_false_iff_not]
      exact (body_drafts hnames f hf).1
  change (s.drafts idName fields).filter _ = _
  rw [drafts, List.filter_cons_of_neg (by simp), List.filter_append, hbody]
  simp

include hnames in
lemma scan_drafts (hcreated : s.createdAt.IsRegular) (hupdated : s.updatedAt.IsRegular) :
    Record.scan [.of idName (Draft.scalar Uuid.decode),
      .of "created_at" (Draft.scalar Instant.decode),
      .of "updated_at" (Draft.scalar Instant.decode)]
      (fun d => d.content.map fun _ => ()) [] (s.drafts idName fields) = .ok () := by
  have hdistinct : "created_at" ≠ idName ∧ "updated_at" ≠ idName := by
    have hnot := (List.nodup_cons.mp hnames).1
    constructor <;> rintro rfl <;> exact hnot (by simp)
  refine scan_eq_ok (nodup_drafts hnames) (by simp) fun f hf => ?_
  obtain rfl | hf := List.mem_cons.mp hf
  · simp [fieldOutcome, Draft.scalar_str, decode_uuid]
  · obtain hf | hf := List.mem_append.mp hf
    · obtain ⟨hname, j, hj⟩ := body_drafts hnames f hf
      simp only [List.mem_cons, List.not_mem_nil, or_false, not_or] at hname
      simp [fieldOutcome, List.lookup_cons, beq_eq_false_iff_ne.mpr hname.1,
        beq_eq_false_iff_ne.mpr hname.2.1, beq_eq_false_iff_ne.mpr hname.2.2, hj]
    · simp only [List.mem_cons, List.not_mem_nil, or_false] at hf
      rcases hf with rfl | rfl
      · simp [fieldOutcome, List.lookup_cons, beq_eq_false_iff_ne.mpr hdistinct.1, Draft.scalar_str,
          decode_instant hcreated]
      · simp [fieldOutcome, List.lookup_cons, beq_eq_false_iff_ne.mpr hdistinct.2, Draft.scalar_str,
          decode_instant hupdated]

include hnames in
/-- What is read of a stamped definition is decoded with the body that is decoded of its fields. -/
lemma decode_reread (hcreated : s.createdAt.IsRegular) (hupdated : s.updatedAt.IsRegular)
    {body : α} (hbody : decodeBody (recordOf (rereadFields (fields s.body))) = .ok body) :
    Stamped.decode title idName decodeBody (Draft.ofJson (s.toJson idName fields).reread) =
      .ok { s with body := body } := by
  have hlookup : ∀ name d, (name, d) ∈ s.drafts idName fields →
      (s.drafts idName fields).lookup name = some d :=
    fun _ _ => lookup_of_mem (nodup_drafts hnames)
  have hcheck : (Draft.recordOf (s.drafts idName fields) none).check
      [.of idName (Draft.scalar Uuid.decode), .of "created_at" (Draft.scalar Instant.decode),
        .of "updated_at" (Draft.scalar Instant.decode)] = .ok () := by
    rw [check_eq]
    exact bind_eq_ok.mpr ⟨(), scan_drafts hnames hcreated hupdated, rfl⟩
  have hid : (Draft.recordOf (s.drafts idName fields) none).required idName
      (Draft.scalar Uuid.decode) = .ok s.id := by
    simp only [required_eq, Draft.recordOf, hlookup idName (.str s.id.text) (by simp [drafts]),
      Draft.scalar_str, decode_uuid]
  have hcreatedAt : (Draft.recordOf (s.drafts idName fields) none).required "created_at"
      (Draft.scalar Instant.decode) = .ok s.createdAt := by
    simp only [required_eq, Draft.recordOf,
      hlookup "created_at" (.str s.createdAt.text) (by simp [drafts]), Draft.scalar_str,
      decode_instant hcreated]
  have hupdatedAt : (Draft.recordOf (s.drafts idName fields) none).required "updated_at"
      (Draft.scalar Instant.decode) = .ok s.updatedAt := by
    simp only [required_eq, Draft.recordOf,
      hlookup "updated_at" (.str s.updatedAt.text) (by simp [drafts]), Draft.scalar_str,
      decode_instant hupdated]
  rw [ofJson_reread, Stamped.decode]
  simp only [hcheck, hid, hcreatedAt, hupdatedAt, others_drafts hnames, Draft.contents_ofFields,
    hbody, ok_bind]
  rfl

include hnames in
/-- The text of a stamped definition is decoded if its fields can be read and are not too deep. -/
lemma decodeText_eq_ok (hcreated : s.createdAt.IsRegular) (hupdated : s.updatedAt.IsRegular)
    {body : α} (hbody : decodeBody (recordOf (rereadFields (fields s.body))) = .ok body)
    {s' : Stamped α} :
    Draft.decodeText (Stamped.decode title idName decodeBody) (s.toJson idName fields).compact =
        .ok s' ↔
      ((fields s.body).all fun f => f.2.tokens.all Token.isSound) = true ∧
        fieldsDepth (fields s.body) + 1 < Draft.depthLimit ∧ s' = { s with body := body } := by
  have hdecode : Stamped.decode title idName decodeBody _ = _ :=
    decode_reread hnames hcreated hupdated hbody
  have hdepth : (s.toJson idName fields).depth = fieldsDepth (fields s.body) + 1 := by
    rw [toJson, depth, Nat.add_right_cancel_iff]
    refine eq_of_forall_ge_iff fun k => ?_
    rw [fieldsDepth_le, fieldsDepth_le, List.forall_mem_cons, List.forall_mem_append]
    simp [depth]
  rw [toJson] at hdecode hdepth ⊢
  rw [Draft.decodeText_compact thorough_decode, hdecode, hdepth, tokens_obj_sound, Except.ok.injEq,
    eq_comm (b := s')]
  exact and_congr_left fun _ => by simp

end Decode

end Stamped

/-- A stored rule is read back if its predicate can be, with the literals as they are read. -/
lemma RuleRecord.readRecord_eq_ok {r r' : RuleRecord} (hcreated : r.createdAt.IsRegular)
    (hupdated : r.updatedAt.IsRegular) :
    Store.readRecord RuleRecord.decode r.toJson.compact = .ok r' ↔
      r.body.IsReadable ∧ r' = { r with body := r.body.reread } := by
  have hnames : ("rule_id" :: (r.body.toFields.map (·.1) ++ ["created_at", "updated_at"])).Nodup :=
    List.Nodup.sublist ((r.body.sublist_toFields.append_right _).cons_cons _) (by decide)
  have hdepth : Json.fieldsDepth r.body.toFields + 1 < Json.Draft.depthLimit ↔
      ∀ p, r.body.predicate = some p → p.depth + 1 < Json.Draft.depthLimit := by
    have hle := r.body.depth_toFields (k := 126) (by decide)
    unfold Json.Draft.depthLimit
    exact ⟨fun h p hp => by have := hle.mp (by omega) p hp; omega,
      fun h => by have := hle.mpr fun p hp => (by have := h p hp; omega); omega⟩
  rw [Store.readRecord, mapError_eq_ok]
  refine (Stamped.decodeText_eq_ok hnames hcreated hupdated r.body.decodeFields_reread).trans ?_
  rw [← and_assoc, Rule.tokens_toFields, hdepth, ← forall₂_and]
  rfl

lemma ClaimRecord.readRecord_toJson {c : ClaimRecord} (hcreated : c.createdAt.IsRegular)
    (hupdated : c.updatedAt.IsRegular) :
    Store.readRecord ClaimRecord.decode c.toJson.compact = .ok c := by
  have hnames : ("claim_id" :: (c.body.toFields.map (·.1) ++ ["created_at", "updated_at"])).Nodup :=
    List.Nodup.sublist ((c.body.sublist_toFields.append_right _).cons_cons _) (by decide)
  have hreread : Json.rereadFields c.body.toFields = c.body.toFields := by
    rw [Json.rereadFields_eq]
    refine (List.map_congr_left fun f hf => ?_).trans (List.map_id _)
    rw [(c.body.isPlain_toFields f hf).reread]
    rfl
  have hdepth : Json.fieldsDepth c.body.toFields ≤ 1 :=
    Json.fieldsDepth_le.mpr fun f hf => (c.body.isPlain_toFields f hf).depth
  have hbody := c.body.decodeFields_toFields
  rw [← hreread] at hbody
  rw [Store.readRecord, mapError_eq_ok]
  refine (Stamped.decodeText_eq_ok hnames hcreated hupdated hbody).mpr ⟨?_, ?_, rfl⟩
  · exact List.all_eq_true.mpr fun f hf => (c.body.isPlain_toFields f hf).sound
  · unfold Json.Draft.depthLimit
    omega

end RowPolicy
