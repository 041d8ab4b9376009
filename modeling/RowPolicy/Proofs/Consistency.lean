import Mathlib.Logic.Relation
import RowPolicy.Proofs.Compilation

/-!
# Consistency of the catalog

Rules depend on claims and on each other. Edits are checked one at a time, and only against what
they may break: the rules that refer to a claim when it is replaced, the write rules of a table when
its read rule goes. What a rule needs of a catalog is its table and the claims it refers to, so
these checks keep every stored rule valid.
-/

namespace RowPolicy

/-! ### Keyed lists -/

namespace Keyed

variable {α κ : Type} [BEq κ] [LawfulBEq κ] {lt : κ → κ → Bool} {key : α → κ} {a x : α} {k : κ}
  {as : List α}

@[simp] lemma get?_insert_self : get? key (key a) (insert lt key a as) = some a := by
  induction as with
  | nil => simp [get?, insert]
  | cons b bs ih =>
    simp only [get?, insert] at ih ⊢
    split_ifs with hsame hlt
    · simp
    · simp
    · simp [hsame, ih]

lemma get?_insert_of_ne (h : key a ≠ k) : get? key k (insert lt key a as) = get? key k as := by
  induction as with
  | nil => simp [get?, insert, h]
  | cons b bs ih =>
    simp only [get?, insert] at ih ⊢
    split_ifs with hsame hlt
    · have hb : key b ≠ k := by rwa [eq_of_beq hsame]
      simp [h, hb]
    · simp [h]
    · simp [List.find?_cons, ih]

lemma get?_erase_of_ne {k' : κ} (h : k' ≠ k) :
    get? key k (erase key k' as) = get? key k as := by
  induction as with
  | nil => rfl
  | cons b bs ih =>
    simp only [get?, erase] at ih ⊢
    by_cases hb : key b = k'
    · have hk : key b ≠ k := by rwa [hb]
      simp [hb, h, ih]
    · simp [hb, List.find?_cons, ih]

omit [LawfulBEq κ] in
lemma mem_insert (h : x ∈ insert lt key a as) : x = a ∨ x ∈ as := by
  induction as with
  | nil => simpa [insert] using h
  | cons b bs ih =>
    simp only [insert] at h
    split_ifs at h with hsame hlt
    · rcases List.mem_cons.mp h with rfl | hx
      · exact .inl rfl
      · exact .inr (List.mem_cons_of_mem b hx)
    · exact List.mem_cons.mp h
    · rcases List.mem_cons.mp h with rfl | hx
      · exact .inr List.mem_cons_self
      · exact (ih hx).imp_right (List.mem_cons_of_mem b)

lemma mem_erase : x ∈ erase key k as ↔ x ∈ as ∧ key x ≠ k := by
  simp [erase]

lemma isSome_get? : (get? key k as).isSome = true ↔ ∃ x ∈ as, key x = k := by
  simp [get?]

end Keyed

/-! ### What a rule needs of a catalog -/

namespace Predicate

mutual

def lookups : Predicate → List Lookup
  | .literalEq _ _ => []
  | .identityEq _ => []
  | .membership _ claim => [⟨claim, none⟩]
  | .propertyCheck _ claim property allowed => [⟨claim, some ⟨property, allowed⟩⟩]
  | .and children => lookupsOfAll children
  | .or children => lookupsOfAll children

def lookupsOfAll : List Predicate → List Lookup
  | [] => []
  | p :: rest => lookups p ++ lookupsOfAll rest

end

mutual

/-- The claims that are referred to are those that are looked up, at any depth. -/
lemma claimList_eq {p : Predicate} : p.claimList = p.lookups.map Lookup.claim := by
  match p with
  | .literalEq _ _ | .identityEq _ | .membership _ _ | .propertyCheck _ _ _ _ =>
    simp [claimList, lookups]
  | .and children | .or children =>
    rw [claimList, lookups, claimLists_eq]

lemma claimLists_eq {ps : List Predicate} :
    claimLists ps = (lookupsOfAll ps).map Lookup.claim := by
  match ps with
  | [] => rfl
  | p :: rest => rw [claimLists, lookupsOfAll, List.map_append, claimList_eq, claimLists_eq]

end

mutual

/-- Resolution is a matter of columns and of lookups. -/
lemma resolves_iff {c : Catalog} {t : TableShape} {p : Predicate} :
    p.Resolves c t ↔
      (∀ column ∈ p.columnList, t.hasColumn column = true) ∧ ∀ l ∈ p.lookups, c.Finds l := by
  match p with
  | .literalEq _ _ | .identityEq _ | .membership _ _ | .propertyCheck _ _ _ _ =>
    simp [Resolves, columnList, lookups]
  | .and children | .or children =>
    rw [Resolves, columnList, lookups, resolveAll_iff]

lemma resolveAll_iff {c : Catalog} {t : TableShape} {ps : List Predicate} :
    ResolveAll c t ps ↔
      (∀ column ∈ columnLists ps, t.hasColumn column = true) ∧
        ∀ l ∈ lookupsOfAll ps, c.Finds l := by
  match ps with
  | [] => simp [ResolveAll, columnLists, lookupsOfAll]
  | p :: rest =>
    rw [ResolveAll, columnLists, lookupsOfAll, List.forall_mem_append, List.forall_mem_append,
      resolves_iff, resolveAll_iff, and_and_and_comm]

end

end Predicate

namespace Rule

def lookups (r : Rule) : List Lookup := (r.predicate.map Predicate.lookups).getD []

/-- The rule tests a property of a claim. -/
def Tests (r : Rule) (claim property : String) : Prop :=
  ∃ allowed, ⟨claim, some ⟨property, allowed⟩⟩ ∈ r.lookups

lemma references_iff {r : Rule} {claim : String} :
    r.references claim = true ↔ ∃ l ∈ r.lookups, l.claim = claim := by
  unfold references lookups
  cases r.predicate with
  | none => simp
  | some p => simp [Predicate.claimList_eq]

lemma finds_of_resolves {c : Catalog} {t : TableShape} {r : Rule} (h : r.Resolves c t) :
    ∀ l ∈ r.lookups, c.Finds l := by
  unfold lookups
  cases hp : r.predicate with
  | none => simp
  | some p => exact (Predicate.resolves_iff.mp (h.2 p hp)).2

lemma Resolves.congr {c c' : Catalog} {t : TableShape} {r : Rule} (h : r.Resolves c t)
    (hfinds : ∀ l ∈ r.lookups, c.Finds l → c'.Finds l) : r.Resolves c' t := by
  refine ⟨h.1, fun p hp => ?_⟩
  have hlookups : r.lookups = p.lookups := by simp [lookups, hp]
  obtain ⟨hcolumns, hp⟩ := Predicate.resolves_iff.mp (h.2 p hp)
  rw [hlookups] at hfinds
  exact Predicate.resolves_iff.mpr ⟨hcolumns, fun l hl => hfinds l hl (hp l hl)⟩

end Rule

namespace Catalog

def Compiles (c : Catalog) (r : Rule) : Prop := ∃ plan, c.compileRule r = .ok plan

lemma Compiles.finds {c : Catalog} {r : Rule} (h : c.Compiles r) :
    ∀ l ∈ r.lookups, c.Finds l := by
  obtain ⟨plan, hplan⟩ := h
  obtain ⟨-, t, -, hresolves, -⟩ := compileRule_eq_ok.mp hplan
  exact Rule.finds_of_resolves hresolves

/-- A rule still compiles if the tables stay and what it refers to is found as before. -/
lemma Compiles.congr {c c' : Catalog} {r : Rule} (h : c.Compiles r)
    (htables : c'.tables = c.tables)
    (hclaims : ∀ claim, r.references claim = true → c'.claim? claim = c.claim? claim) :
    c'.Compiles r := by
  obtain ⟨plan, hplan⟩ := h
  obtain ⟨hvalid, t, ht, hresolves, hplan⟩ := compileRule_eq_ok.mp hplan
  have ht' : c'.table? r.table = some t := by rw [← ht, table?, table?, htables]
  have hfinds : ∀ l ∈ r.lookups, c.Finds l → c'.Finds l := by
    intro l hl
    have hclaim := hclaims l.claim (Rule.references_iff.mpr ⟨l, hl, rfl⟩)
    simp only [Finds, hclaim, imp_self]
  exact ⟨plan, compileRule_eq_ok.mpr ⟨hvalid, t, ht', hresolves.congr hfinds, hplan⟩⟩

end Catalog

/-! ### Checked edits -/

namespace Catalog

/-- An edit of the rules and claims that passed its checks. -/
inductive Edit : Catalog → Catalog → Prop
  | defineRule {c : Catalog} {r : Rule} (hneeds : c.checkDefine r = .ok ())
      (hcompiles : c.Compiles r) :
      Edit c (c.insertRule r)
  | dropRule {c : Catalog} {k : RuleKey} (hneeds : c.checkDropRule k = .ok ()) :
      Edit c (c.removeRule k)
  | defineClaim {c : Catalog} {claim : Claim} (hvalid : c.compileClaim claim = .ok ())
      (hcompile : ∀ r ∈ c.rulesReferencing claim.name, (c.insertClaim claim).Compiles r) :
      Edit c (c.insertClaim claim)
  | dropClaim {c : Catalog} {claim : String} (hunused : c.checkDropClaim claim = .ok ()) :
      Edit c (c.removeClaim claim)

/-- The rules fit together, and with the claims. -/
structure Consistent (c : Catalog) : Prop where
  /-- A table that is written has a read rule. -/
  readable : ∀ r ∈ c.rules, r.operation.isWrite = true → c.hasRule ⟨r.table, .read⟩ = true
  /-- A claim that a rule refers to is defined and exposes what the rule tests. -/
  defined : ∀ r ∈ c.rules, ∀ name, r.references name = true →
    ∃ claim, c.claim? name = some claim ∧
      ∀ property, r.Tests name property → claim.exposes property = true
  /-- The rules compile. -/
  compiles : ∀ r ∈ c.rules, c.Compiles r

lemma hasRule_iff {c : Catalog} {k : RuleKey} : c.hasRule k = true ↔ ∃ r ∈ c.rules, r.key = k :=
  Keyed.isSome_get?

lemma Consistent.of_compiles {c : Catalog}
    (hreadable : ∀ r ∈ c.rules, r.operation.isWrite = true → c.hasRule ⟨r.table, .read⟩ = true)
    (hcompiles : ∀ r ∈ c.rules, c.Compiles r) : c.Consistent := by
  refine ⟨hreadable, fun r hr name hname => ?_, hcompiles⟩
  have hfinds := (hcompiles r hr).finds
  obtain ⟨l, hl, rfl⟩ := Rule.references_iff.mp hname
  obtain ⟨claim, hclaim, -⟩ := hfinds l hl
  refine ⟨claim, hclaim, ?_⟩
  rintro property ⟨allowed, hmem⟩
  obtain ⟨claim', hclaim', hexposes⟩ := hfinds _ hmem
  obtain rfl : claim = claim' := Option.some.inj (hclaim.symm.trans hclaim')
  exact hexposes _ rfl

variable {c : Catalog}

lemma Consistent.insertRule {r : Rule} (h : c.Consistent) (hneeds : c.checkDefine r = .ok ())
    (hcompiles : c.Compiles r) : (c.insertRule r).Consistent := by
  have hkept : ∀ k, c.hasRule k = true → (c.insertRule r).hasRule k = true := by
    intro k hk
    unfold hasRule rule? Catalog.insertRule
    by_cases hkey : r.key = k
    · subst hkey
      simp
    · rwa [Keyed.get?_insert_of_ne hkey]
  apply Consistent.of_compiles
  · intro r' hr' hwrite
    rcases Keyed.mem_insert hr' with rfl | hr'
    · refine hkept _ ?_
      unfold checkDefine at hneeds
      by_contra hread
      simp [hwrite, hread] at hneeds
    · exact hkept _ (h.readable r' hr' hwrite)
  · intro r' hr'
    have hold : c.Compiles r' := by
      rcases Keyed.mem_insert hr' with rfl | hr'
      · exact hcompiles
      · exact h.compiles r' hr'
    exact hold.congr rfl fun _ _ => rfl

lemma mem_operationsFor {table : String} {op : Operation} :
    op ∈ c.operationsFor table ↔ c.hasRule ⟨table, op⟩ = true := by
  cases op <;> simp [operationsFor, Operation.all]

lemma Consistent.removeRule {k : RuleKey} (h : c.Consistent)
    (hneeds : c.checkDropRule k = .ok ()) : (c.removeRule k).Consistent := by
  apply Consistent.of_compiles
  · intro r hr hwrite
    have hmem : r ∈ c.rules := (Keyed.mem_erase.mp hr).1
    have hread := h.readable r hmem hwrite
    by_cases hk : k = ⟨r.table, .read⟩
    · -- The read rule of a table that is written cannot be dropped.
      exfalso
      subst hk
      have hop : r.operation ∈ c.operationsFor r.table :=
        mem_operationsFor.mpr (hasRule_iff.mpr ⟨r, hmem, rfl⟩)
      simp only [checkDropRule, beq_self_eq_true, if_true] at hneeds
      cases hfind : (c.operationsFor r.table).find? Operation.isWrite with
      | none => exact absurd hwrite (by simpa using List.find?_eq_none.mp hfind _ hop)
      | some op => simp [hfind] at hneeds
    · unfold hasRule rule? Catalog.removeRule
      rwa [Keyed.get?_erase_of_ne hk]
  · intro r hr
    exact (h.compiles r (Keyed.mem_erase.mp hr).1).congr rfl fun _ _ => rfl

lemma Consistent.insertClaim {claim : Claim} (h : c.Consistent)
    (hcompile : ∀ r ∈ c.rulesReferencing claim.name, (c.insertClaim claim).Compiles r) :
    (c.insertClaim claim).Consistent := by
  refine Consistent.of_compiles (fun r hr hwrite => h.readable r hr hwrite) fun r hr => ?_
  by_cases hname : r.references claim.name = true
  · exact hcompile r (List.mem_filter.mpr ⟨hr, hname⟩)
  · refine (h.compiles r hr).congr rfl fun name hreferences => ?_
    refine Keyed.get?_insert_of_ne ?_
    rintro rfl
    exact hname hreferences

lemma Consistent.removeClaim {claim : String} (h : c.Consistent)
    (hunused : c.checkDropClaim claim = .ok ()) : (c.removeClaim claim).Consistent := by
  have hnone : c.rulesReferencing claim = [] := by
    by_contra hne
    simp [checkDropClaim, hne] at hunused
  refine Consistent.of_compiles (fun r hr hwrite => h.readable r hr hwrite) fun r hr => ?_
  refine (h.compiles r hr).congr rfl fun name hreferences => ?_
  refine Keyed.get?_erase_of_ne ?_
  rintro rfl
  exact List.filter_eq_nil_iff.mp hnone r hr hreferences

/-- A checked edit keeps a catalog consistent. -/
lemma Edit.consistent {c' : Catalog} (hedit : Edit c c') (h : c.Consistent) : c'.Consistent := by
  cases hedit with
  | defineRule hneeds hcompiles => exact h.insertRule hneeds hcompiles
  | dropRule hneeds => exact h.removeRule hneeds
  | defineClaim _ hcompile => exact h.insertClaim hcompile
  | dropClaim hunused => exact h.removeClaim hunused

/-- Every run of checked edits from a catalog without rules keeps the rules and claims
consistent. -/
theorem consistent_of_edits {start c : Catalog} (hrules : start.rules = [])
    (hrun : Relation.ReflTransGen Edit start c) : c.Consistent := by
  induction hrun with
  | refl => exact Consistent.of_compiles (by simp [hrules]) (by simp [hrules])
  | tail _ hedit ih => exact hedit.consistent ih

/-- A write rule on a claim, which is then replaced. -/
theorem consistent_of_edits_members :
    let start : Catalog := ⟨[⟨"docs", ["id", "team"], .column "id"⟩,
      ⟨"members", ["person", "team", "role"], .rowId⟩], [], []⟩
    let teams : Claim := ⟨"teams", .table "members", "person", "team", ["role"]⟩
    let read : Rule := ⟨"docs", .read, [], none⟩
    let create : Rule := ⟨"docs", .create, [],
      some (.or [.propertyCheck "team" "teams" "role" [.text "lead"], .identityEq "id"])⟩
    let replaced : Claim := ⟨"teams", .query "SELECT * FROM members", "person", "team", ["role"]⟩
    let c := (((start.insertClaim teams).insertRule read).insertRule create).insertClaim replaced
    Relation.ReflTransGen Edit start c ∧ c.Consistent := by
  intro start teams read create replaced c
  have hteams : Edit start (start.insertClaim teams) := by
    refine .defineClaim (isOk_unit.mp (by decide)) fun r hr => ?_
    simp [rulesReferencing, start] at hr
  have hread : Edit (start.insertClaim teams) ((start.insertClaim teams).insertRule read) :=
    .defineRule rfl (isOk_iff.mp (by decide))
  have hcreate : Edit ((start.insertClaim teams).insertRule read)
      (((start.insertClaim teams).insertRule read).insertRule create) :=
    .defineRule rfl (isOk_iff.mp (by decide))
  have hreplaced : Edit (((start.insertClaim teams).insertRule read).insertRule create) c := by
    refine .defineClaim (isOk_unit.mp (by decide)) fun r hr => isOk_iff.mp ?_
    have hall : ((((start.insertClaim teams).insertRule read).insertRule create).rulesReferencing
        replaced.name).all (fun r => (c.compileRule r).isOk) = true := by decide
    exact List.all_eq_true.mp hall r hr
  have hrun := (((Relation.ReflTransGen.single hteams).tail hread).tail hcreate).tail hreplaced
  exact ⟨hrun, consistent_of_edits rfl hrun⟩

end Catalog

end RowPolicy
