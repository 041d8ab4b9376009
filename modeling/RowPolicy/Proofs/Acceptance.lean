import Mathlib.Tactic.MkIffOfInductiveProp
import RowPolicy.Proofs.Consistency

/-!
# What compiles

A rule is checked twice over: its form first, without regard to any catalog, and then its names
against one. Both checks walk the predicate, and both pass exactly if every node of it does. So what
compiles can be said node by node, and nothing is left that taking a predicate apart could refuse.
-/

namespace RowPolicy

/-! ### Checks -/

lemma checkName_eq_ok {kind : NameKind} {name : String} :
    checkName kind name = .ok () ↔ Text.isPlainName name = true := by
  simp [checkName]

lemma require_eq_ok {p : Prop} [Decidable p] {e : DefinitionError} :
    (if p then pure () else throw e : Checked Unit) = .ok () ↔ p :=
  ite_ok_eq_ok.trans (and_iff_left rfl)

lemma refuse_eq_ok {p : Prop} [Decidable p] {e : DefinitionError} {x : Checked Unit} :
    (do if p then throw e
        x) = .ok () ↔ ¬p ∧ x = .ok () := by
  by_cases h : p
  · simp only [h, if_true, not_true, false_and, iff_false]
    exact throw_ne_ok
  · simp only [h, if_false, not_false_eq_true, true_and]

/-! ### Distinct names -/

namespace Text

lemma mem_insertSorted {s x : String} {ss : List String} :
    x ∈ insertSorted s ss ↔ x = s ∨ x ∈ ss := by
  induction ss with
  | nil => simp [insertSorted]
  | cons t ts ih =>
    rw [insertSorted]
    split_ifs with hlt hsame
    · exact List.mem_cons
    · rw [beq_iff_eq] at hsame
      rw [hsame]
      simp
    · rw [List.mem_cons, List.mem_cons, ih]
      tauto

@[simp] lemma mem_sortDistinct {x : String} {ss : List String} :
    x ∈ sortDistinct ss ↔ x ∈ ss := by
  induction ss with
  | nil => rfl
  | cons s ss ih =>
    rw [sortDistinct, List.foldr_cons, ← sortDistinct, mem_insertSorted, ih, List.mem_cons]

end Text

/-! ### Nodes of a predicate -/

namespace Predicate

mutual

def nodes : Predicate → List Predicate
  | .and children => .and children :: nodesOfAll children
  | .or children => .or children :: nodesOfAll children
  | p => [p]

def nodesOfAll : List Predicate → List Predicate
  | [] => []
  | p :: rest => nodes p ++ nodesOfAll rest

end

/-- The column, claim and property that a node names itself. -/
def ownNames : Predicate → List String
  | .literalEq column _ => [column]
  | .identityEq column => [column]
  | .membership column claim => [column, claim]
  | .propertyCheck column claim property _ => [column, claim, property]
  | .and _ => []
  | .or _ => []

def ownLiterals : Predicate → List Literal
  | .literalEq _ value => [value]
  | .propertyCheck _ _ _ allowed => allowed
  | _ => []

/-- A connective has a child, and a test of a property has an allowed value. -/
def HasParts : Predicate → Prop
  | .propertyCheck _ _ _ allowed => allowed ≠ []
  | .and children => children ≠ []
  | .or children => children ≠ []
  | _ => True

/-- The form of a node is right: its names are plain, it has the parts that it needs, and its
numbers are finite. -/
@[mk_iff]
structure IsWellFormed (p : Predicate) : Prop where
  plain : ∀ name ∈ p.ownNames, Text.isPlainName name = true
  parts : p.HasParts
  finite : ∀ v ∈ p.ownLiterals, v.isFinite = true

mutual

/-- A predicate is valid exactly if each of its nodes is well formed. -/
lemma validate_iff {p : Predicate} :
    p.validate = .ok () ↔ ∀ node ∈ p.nodes, node.IsWellFormed := by
  match p with
  | .literalEq column value =>
    simp only [validate, bind_eq_ok, exists_unit, checkName_eq_ok, require_eq_ok]
    simp [nodes, isWellFormed_iff, ownNames, HasParts, ownLiterals]
  | .identityEq column =>
    simp [validate, checkName_eq_ok, nodes, isWellFormed_iff, ownNames, HasParts, ownLiterals]
  | .membership column claim =>
    simp [validate, bind_eq_ok, exists_unit, checkName_eq_ok, nodes, isWellFormed_iff, ownNames,
      HasParts, ownLiterals]
  | .propertyCheck column claim property allowed =>
    simp only [validate, bind_eq_ok, exists_unit, checkName_eq_ok, refuse_eq_ok, require_eq_ok]
    simp [nodes, isWellFormed_iff, ownNames, HasParts, ownLiterals, and_assoc]
  | .and children | .or children =>
    rw [validate, ite_error_eq_ok, nodes, List.forall_mem_cons, validateAll_iff]
    simp [isWellFormed_iff, ownNames, HasParts, ownLiterals]

lemma validateAll_iff {ps : List Predicate} :
    validateAll ps = .ok () ↔ ∀ node ∈ nodesOfAll ps, node.IsWellFormed := by
  match ps with
  | [] => simp [validateAll, nodesOfAll]
  | p :: rest =>
    rw [validateAll, bind_eq_ok, exists_unit, nodesOfAll, List.forall_mem_append, validate_iff,
      validateAll_iff]

end

/-! ### Names of a predicate -/

mutual

/-- The properties that are looked at are those of the nodes that test one. -/
lemma mem_lookups_iff {p : Predicate} {claim property : String} {allowed : List Literal} :
    ⟨claim, some ⟨property, allowed⟩⟩ ∈ p.lookups ↔
      ∃ column, .propertyCheck column claim property allowed ∈ p.nodes := by
  match p with
  | .literalEq _ _ | .identityEq _ | .membership _ _ => simp [lookups, nodes]
  | .propertyCheck column claim property allowed => simp [lookups, nodes]
  | .and children | .or children =>
    simp only [lookups, nodes, mem_lookupsOfAll_iff, List.mem_cons, reduceCtorEq, false_or]

lemma mem_lookupsOfAll_iff {ps : List Predicate} {claim property : String}
    {allowed : List Literal} :
    ⟨claim, some ⟨property, allowed⟩⟩ ∈ lookupsOfAll ps ↔
      ∃ column, .propertyCheck column claim property allowed ∈ nodesOfAll ps := by
  match ps with
  | [] => simp [lookupsOfAll, nodesOfAll]
  | p :: rest =>
    simp only [lookupsOfAll, nodesOfAll, List.mem_append, mem_lookups_iff, mem_lookupsOfAll_iff,
      exists_or]

end

/-- The lookups of a predicate find their claims exactly if each claim is defined and has the
properties that are tested. -/
lemma finds_iff {c : Catalog} {p : Predicate} : (∀ l ∈ p.lookups, c.Finds l) ↔
    (∀ name ∈ p.claims, ∃ claim, c.claim? name = some claim) ∧
      ∀ column name property allowed, .propertyCheck column name property allowed ∈ p.nodes →
        ∀ claim, c.claim? name = some claim → property ∈ claim.attributes := by
  constructor
  · intro h
    refine ⟨fun name hname => ?_, fun column name property allowed hnode claim hclaim => ?_⟩
    · rw [claims, Text.mem_sortDistinct, claimList_eq, List.mem_map] at hname
      obtain ⟨l, hl, rfl⟩ := hname
      obtain ⟨claim, hclaim, -⟩ := h l hl
      exact ⟨claim, hclaim⟩
    · obtain ⟨found, hfound, hexposes⟩ := h _ (mem_lookups_iff.mpr ⟨column, hnode⟩)
      obtain rfl : claim = found := Option.some.inj (hclaim.symm.trans hfound)
      exact List.contains_iff_mem.mp (hexposes _ rfl)
  · rintro ⟨hdefined, hexposes⟩ ⟨name, property⟩ hl
    obtain ⟨claim, hclaim⟩ := hdefined name <| by
      rw [claims, Text.mem_sortDistinct, claimList_eq]
      exact List.mem_map.mpr ⟨_, hl, rfl⟩
    refine ⟨claim, hclaim, fun filter hfilter => ?_⟩
    obtain rfl : property = some filter := hfilter
    obtain ⟨column, hnode⟩ := mem_lookups_iff.mp hl
    exact List.contains_iff_mem.mpr (hexposes column name _ _ hnode claim hclaim)

end Predicate

/-! ### Rules -/

namespace Rule

def nodes (r : Rule) : List Predicate := (r.predicate.map Predicate.nodes).getD []

lemma validateProjection_iff {table : String} {seen columns : List String} :
    validateProjection table seen columns = .ok () ↔
      (∀ column ∈ columns, Text.isPlainName column = true) ∧ columns.Nodup ∧
        ∀ column ∈ columns, column ∉ seen := by
  induction columns generalizing seen with
  | nil => simp [validateProjection]
  | cons column rest ih =>
    rw [validateProjection, bind_eq_ok, exists_unit, checkName_eq_ok,
      refuse_eq_ok, ih, List.contains_iff_mem, List.nodup_cons, List.forall_mem_cons,
      List.forall_mem_cons]
    -- A column of the rest is neither seen before nor the first one.
    have hrest : (∀ c ∈ rest, c ∉ column :: seen) ↔ column ∉ rest ∧ ∀ c ∈ rest, c ∉ seen := by
      simp only [List.mem_cons, not_or]
      refine ⟨fun h => ⟨fun hmem => (h column hmem).1 rfl, fun c hc => (h c hc).2⟩, ?_⟩
      rintro ⟨hmem, h⟩ c hc
      exact ⟨fun heq => hmem (heq ▸ hc), h c hc⟩
    rw [hrest]
    tauto

/-- What the form of a rule must be. -/
lemma validate_iff {r : Rule} : r.validate = .ok () ↔
    Text.isPlainName r.table = true ∧ (r.operation.isWrite = true → r.projection = []) ∧
      (∀ column ∈ r.projection, Text.isPlainName column = true) ∧ r.projection.Nodup ∧
      ∀ node ∈ r.nodes, node.IsWellFormed := by
  rw [validate, bind_eq_ok, exists_unit, checkName_eq_ok, refuse_eq_ok,
    bind_eq_ok, exists_unit, validateProjection_iff]
  unfold nodes
  cases r.predicate with
  | none => simp [pure_eq_ok]
  | some p => simp [Predicate.validate_iff, and_assoc]

end Rule

namespace Catalog

/-- What a rule must be like to compile. -/
structure Accepts (c : Catalog) (r : Rule) : Prop where
  plainTable : Text.isPlainName r.table = true
  plainProjection : ∀ column ∈ r.projection, Text.isPlainName column = true
  plainNames : ∀ node ∈ r.nodes, ∀ name ∈ node.ownNames, Text.isPlainName name = true
  readProjection : r.operation.isWrite = true → r.projection = []
  distinctProjection : r.projection.Nodup
  parts : ∀ node ∈ r.nodes, node.HasParts
  finite : ∀ node ∈ r.nodes, ∀ v ∈ node.ownLiterals, v.isFinite = true
  /-- The table is there, with the columns that are shown and tested; an update or delete can
  address its rows. -/
  exists_table : ∃ t, c.table? r.table = some t ∧
    (∀ column ∈ r.projection, column ∈ t.columns) ∧
    (∀ p, r.predicate = some p → ∀ column ∈ p.columns, column ∈ t.columns) ∧
    (r.operation = .update ∨ r.operation = .delete → ∀ columns, t.key ≠ .composite columns)
  claims : ∀ p, r.predicate = some p → ∀ name ∈ p.claims, ∃ claim, c.claim? name = some claim
  properties : ∀ column name property allowed,
    .propertyCheck column name property allowed ∈ r.nodes →
      ∀ claim, c.claim? name = some claim → property ∈ claim.attributes

variable {c : Catalog} {r : Rule} {t : TableShape}

/-- The names of a rule can be resolved exactly if its columns are there, its claims are defined
and they have the properties that are tested. -/
lemma resolves_iff : r.Resolves c t ↔
    (∀ column ∈ r.projection, column ∈ t.columns) ∧
      (∀ p, r.predicate = some p → ∀ column ∈ p.columns, column ∈ t.columns) ∧
      (∀ p, r.predicate = some p → ∀ name ∈ p.claims, ∃ claim, c.claim? name = some claim) ∧
      ∀ column name property allowed, .propertyCheck column name property allowed ∈ r.nodes →
        ∀ claim, c.claim? name = some claim → property ∈ claim.attributes := by
  simp only [Rule.Resolves, TableShape.hasColumn, List.contains_iff_mem]
  refine and_congr_right fun _ => ?_
  unfold Rule.nodes
  cases r.predicate with
  | none => simp
  | some p =>
    simp only [Option.some.injEq, forall_eq', Option.map_some, Option.getD_some,
      Predicate.resolves_iff, Predicate.finds_iff, Predicate.columns, Text.mem_sortDistinct,
      TableShape.hasColumn, List.contains_iff_mem]

/-- There is a plan unless an update or delete cannot address the rows of its table. -/
lemma exists_plan_iff : (∃ plan, r.plan? t = some plan) ↔
    (r.operation = .update ∨ r.operation = .delete → ∀ columns, t.key ≠ .composite columns) := by
  unfold Rule.plan? TableShape.keyName?
  cases r.operation <;> cases t.key <;> simp

/-- A rule compiles exactly if its form is right and its names are those of the catalog. Once its
predicate has been lowered, it can be taken apart. -/
theorem compiles_iff_accepts (c : Catalog) (r : Rule) : (c.Compiles r ↔ c.Accepts r) ∧
    ∀ t p f, c.lower t p = .ok f → ∃ d, c.decompose t p = .ok d := by
  refine ⟨⟨?_, fun h => ?_⟩, fun t p f hlower => ?_⟩
  · rintro ⟨plan, hplan⟩
    obtain ⟨hvalid, t, ht, hresolves, hplan⟩ := compileRule_eq_ok.mp hplan
    obtain ⟨htable, hwrite, hprojection, hdistinct, hnodes⟩ := Rule.validate_iff.mp hvalid
    obtain ⟨hshown, hcolumns, hclaims, hproperties⟩ := resolves_iff.mp hresolves
    exact {
      plainTable := htable
      plainProjection := hprojection
      plainNames := fun node hnode => (hnodes node hnode).plain
      readProjection := hwrite
      distinctProjection := hdistinct
      parts := fun node hnode => (hnodes node hnode).parts
      finite := fun node hnode => (hnodes node hnode).finite
      exists_table := ⟨t, ht, hshown, hcolumns, exists_plan_iff.mp ⟨plan, hplan⟩⟩
      claims := hclaims
      properties := hproperties }
  · obtain ⟨t, ht, hshown, hcolumns, hkey⟩ := h.exists_table
    obtain ⟨plan, hplan⟩ := exists_plan_iff.mpr hkey
    have hvalid : r.validate = .ok () := Rule.validate_iff.mpr ⟨h.plainTable, h.readProjection,
      h.plainProjection, h.distinctProjection, fun node hnode =>
        ⟨h.plainNames node hnode, h.parts node hnode, h.finite node hnode⟩⟩
    exact ⟨plan, compileRule_eq_ok.mpr ⟨hvalid, t, ht,
      resolves_iff.mpr ⟨hshown, hcolumns, h.claims, h.properties⟩, hplan⟩⟩
  · exact ⟨_, Predicate.decompose_eq (Predicate.lower_eq_ok.mp hlower).1⟩

def orders : Catalog where
  tables := [⟨"orders", ["id", "agent", "region"], .column "id"⟩]
  claims := [⟨"regions", .table "agents", "agent", "region", ["role"]⟩]

/-- An update of one's own orders, and of those of a region by the property that one has there. -/
def ordersUpdate (property : String) : Rule where
  table := "orders"
  operation := .update
  predicate := some (.or [.identityEq "agent",
    .and [.propertyCheck "region" "regions" property [.text "lead"]]])

/-- A property that the claim does not have is refused below a disjunction too. -/
theorem compiles_iff_accepts_orders : orders.Accepts (ordersUpdate "role") ∧
    ¬ orders.Accepts (ordersUpdate "rank") ∧
    ∃ d, orders.decompose ⟨"orders", ["id", "agent", "region"], .column "id"⟩
      (.and [.identityEq "agent", .membership "region" "regions"]) = .ok d := by
  refine ⟨(compiles_iff_accepts orders _).1.mp (isOk_iff.mp (by decide)), fun h => ?_,
    (compiles_iff_accepts orders (ordersUpdate "role")).2 _ _ _ rfl⟩
  have hrefused : (orders.compileRule (ordersUpdate "rank")).isOk = false := by decide
  rw [isOk_iff.mpr ((compiles_iff_accepts orders _).1.mpr h)] at hrefused
  cases hrefused

end Catalog

end RowPolicy
