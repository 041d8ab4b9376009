import RowPolicy.Admin
import RowPolicy.Proofs.Consistency
import RowPolicy.Proofs.Store.Contents

/-!
# Catalogs of the store

The catalog that a call works with agrees with the definitions in the store: its claims are those
that are stored, and its rules are so up to literals. What a rule compiles to is a matter of the
tables and of the claims that it refers to.
-/

namespace RowPolicy

open Store

/-! ### Rules as they are read back -/

namespace Predicate

mutual

@[simp] lemma claimList_reread (p : Predicate) : p.reread.claimList = p.claimList := by
  match p with
  | .literalEq _ _ | .identityEq _ | .membership _ _ | .propertyCheck _ _ _ _ =>
    simp [reread, claimList]
  | .and children | .or children =>
    rw [reread, claimList, claimList, claimLists_rereadAll]

lemma claimLists_rereadAll (ps : List Predicate) :
    claimLists (rereadAll ps) = claimLists ps := by
  match ps with
  | [] => rfl
  | p :: rest => rw [rereadAll, claimLists, claimLists, claimList_reread, claimLists_rereadAll]

end

end Predicate

@[simp] lemma Rule.key_reread (r : Rule) : r.reread.key = r.key := rfl

@[simp] lemma Rule.references_reread (r : Rule) (name : String) :
    r.reread.references name = r.references name := by
  cases hp : r.predicate <;> simp [reread, references, hp]

/-! ### Catalogs -/

namespace Keyed

variable {α κ : Type} [BEq κ] [LawfulBEq κ] {lt : κ → κ → Bool} {key : α → κ} {a x : α} {k : κ}
  {as : List α}

omit [LawfulBEq κ] in
lemma mem_insert_self : a ∈ insert lt key a as := by
  induction as with
  | nil => simp [insert]
  | cons b bs ih =>
    rw [insert]
    split_ifs <;> simp [ih]

lemma mem_insert_of_ne (hx : x ∈ as) (hne : key x ≠ key a) : x ∈ insert lt key a as := by
  induction as with
  | nil => cases hx
  | cons b bs ih =>
    rw [insert]
    split_ifs with hkey hlt
    · obtain rfl | hx := List.mem_cons.mp hx
      · exact absurd (eq_of_beq hkey) hne
      · exact List.mem_cons_of_mem _ hx
    · exact List.mem_cons_of_mem _ hx
    · obtain rfl | hx := List.mem_cons.mp hx
      · exact List.mem_cons_self
      · exact List.mem_cons_of_mem _ (ih hx)

lemma get?_erase_self : get? key k (erase key k as) = none := by
  simp [get?, erase]

lemma key_of_get? (h : get? key k as = some a) : key a = k :=
  eq_of_beq (List.find?_some (p := fun a => key a == k) h)

omit [BEq κ] [LawfulBEq κ] in
/-- What each insertion after those with other keys keeps holds once all are done. -/
lemma foldl_insert {β : Type} {f : β → α → β} {b : β} (P : List α → β → Prop) (h : P [] b)
    (hstep : ∀ done a b, (∀ x, x ∈ a :: done ↔ x = a ∨ x ∈ done ∧ key x ≠ key a) → P done b →
      P (a :: done) (f b a)) (hnodup : (as.map key).Nodup) :
    P as.reverse (as.foldl f b) := by
  induction as using List.reverseRecOn with
  | nil => exact h
  | append_singleton as a ih =>
    rw [List.map_append, List.nodup_append] at hnodup
    rw [List.reverse_concat, List.foldl_concat]
    refine hstep _ _ _ (fun x => ?_) (ih hnodup.1)
    rw [List.mem_cons, List.mem_reverse]
    refine or_congr_right (iff_self_and.mpr fun hx => ?_)
    exact hnodup.2.2 _ (List.mem_map_of_mem hx) _ (by simp)

end Keyed

namespace Catalog

variable {c c' : Catalog}

/-- What a rule compiles to is a matter of the tables and of the claims that it refers to. -/
lemma compileRule_congr {r : Rule} {plan : CompiledRule} (h : c.compileRule r = .ok plan)
    (htables : c'.tables = c.tables)
    (hclaims : ∀ claim, r.references claim = true → c'.claim? claim = c.claim? claim) :
    c'.compileRule r = .ok plan := by
  obtain ⟨hvalid, t, ht, hresolves, hplan⟩ := compileRule_eq_ok.mp h
  have ht' : c'.table? r.table = some t := by rw [← ht, table?, table?, htables]
  refine compileRule_eq_ok.mpr ⟨hvalid, t, ht', hresolves.congr fun l hl hfinds => ?_, hplan⟩
  have hclaim := hclaims l.claim (Rule.references_iff.mpr ⟨l, hl, rfl⟩)
  simpa only [Finds, hclaim] using hfinds

lemma compileClaim_congr (claim : Claim) (htables : c'.tables = c.tables) :
    c'.compileClaim claim = c.compileClaim claim := by
  simp only [compileClaim, resolveTable, table?, htables]

end Catalog

namespace Admin

/-! ### Catalogs that agree with the store -/

/-- A catalog agrees with the definitions that are stored. -/
structure Agrees (shapes : List TableShape) (catalog : Catalog) (c : Contents) : Prop where
  tables : catalog.tables = shapes
  claims : ∀ k ∈ c.claims, catalog.claim? k.body.name = some k.body
  stored : ∀ name claim, catalog.claim? name = some claim → ∃ k ∈ c.claims, k.body = claim
  rules : ∀ r ∈ c.rules, ∃ d ∈ catalog.rules, d.key = r.body.key ∧
    ∀ name, d.references name = r.body.references name

namespace Agrees

variable {shapes : List TableShape} {catalog catalog' : Catalog} {c c' : Contents}

lemma claim?_eq (h : Agrees shapes catalog c) (h' : Agrees shapes catalog' c) (name : String) :
    catalog'.claim? name = catalog.claim? name := by
  have hfound : ∀ {catalog catalog' : Catalog} {claim}, Agrees shapes catalog c →
      Agrees shapes catalog' c → catalog.claim? name = some claim →
      catalog'.claim? name = some claim := by
    intro catalog catalog' claim h h' hclaim
    obtain ⟨k, hk, rfl⟩ := h.stored name claim hclaim
    obtain rfl : k.body.name = name := Keyed.key_of_get? hclaim
    exact h'.claims k hk
  cases hclaim : catalog.claim? name with
  | some claim => exact hfound h h' hclaim
  | none =>
    cases hclaim' : catalog'.claim? name with
    | none => rfl
    | some claim => exact hclaim ▸ (hfound h' h hclaim').symm

lemma insertRule {r : RuleRecord} {d : Rule} (h : Agrees shapes catalog c)
    (hkey : d.key = r.body.key) (hreferences : ∀ name, d.references name = r.body.references name)
    (hclaims : c'.claims = c.claims)
    (hrules : ∀ b ∈ c'.rules, b = r ∨ b ∈ c.rules ∧ b.body.key ≠ r.body.key) :
    Agrees shapes (catalog.insertRule d) c' where
  tables := h.tables
  claims := hclaims ▸ h.claims
  stored := hclaims ▸ h.stored
  rules b hb := by
    obtain rfl | ⟨hb, hne⟩ := hrules b hb
    · exact ⟨d, Keyed.mem_insert_self, hkey, hreferences⟩
    · obtain ⟨d', hd, hdkey, hreferences'⟩ := h.rules b hb
      refine ⟨d', Keyed.mem_insert_of_ne hd ?_, hdkey, hreferences'⟩
      rwa [hdkey, hkey]

lemma removeRule {k : RuleKey} (h : Agrees shapes catalog c) (hclaims : c'.claims = c.claims)
    (hrules : ∀ b ∈ c'.rules, b ∈ c.rules ∧ b.body.key ≠ k) :
    Agrees shapes (catalog.removeRule k) c' where
  tables := h.tables
  claims := hclaims ▸ h.claims
  stored := hclaims ▸ h.stored
  rules b hb := by
    obtain ⟨hb, hkey⟩ := hrules b hb
    obtain ⟨d, hd, hdkey, hreferences⟩ := h.rules b hb
    exact ⟨d, Keyed.mem_erase.mpr ⟨hd, hdkey ▸ hkey⟩, hdkey, hreferences⟩

lemma insertClaim {k : ClaimRecord} (h : Agrees shapes catalog c) (hrules : c'.rules = c.rules)
    (hclaims : ∀ b, b ∈ c'.claims ↔ b = k ∨ b ∈ c.claims ∧ b.body.name ≠ k.body.name) :
    Agrees shapes (catalog.insertClaim k.body) c' where
  tables := h.tables
  claims b hb := by
    obtain rfl | ⟨hb, hname⟩ := (hclaims b).mp hb
    · exact Keyed.get?_insert_self
    · exact (Keyed.get?_insert_of_ne hname.symm).trans (h.claims b hb)
  stored name claim hclaim := by
    by_cases hname : k.body.name = name
    · subst hname
      obtain rfl := Option.some.inj (Keyed.get?_insert_self.symm.trans hclaim)
      exact ⟨k, (hclaims k).mpr (.inl rfl), rfl⟩
    · have hclaim' : catalog.claim? name = some claim :=
        (Keyed.get?_insert_of_ne hname).symm.trans hclaim
      obtain ⟨b, hb, rfl⟩ := h.stored name claim hclaim'
      obtain rfl : b.body.name = name := Keyed.key_of_get? hclaim'
      exact ⟨b, (hclaims b).mpr (.inr ⟨hb, fun heq => hname heq.symm⟩), rfl⟩
  rules := hrules ▸ h.rules

lemma removeClaim {name : String} (h : Agrees shapes catalog c) (hrules : c'.rules = c.rules)
    (hclaims : ∀ b, b ∈ c'.claims ↔ b ∈ c.claims ∧ b.body.name ≠ name) :
    Agrees shapes (catalog.removeClaim name) c' where
  tables := h.tables
  claims b hb := by
    obtain ⟨hb, hname⟩ := (hclaims b).mp hb
    exact (Keyed.get?_erase_of_ne hname.symm).trans (h.claims b hb)
  stored other claim hclaim := by
    by_cases hname : name = other
    · subst hname
      cases Keyed.get?_erase_self.symm.trans hclaim
    · have hclaim' : catalog.claim? other = some claim :=
        (Keyed.get?_erase_of_ne hname).symm.trans hclaim
      obtain ⟨b, hb, rfl⟩ := h.stored other claim hclaim'
      obtain rfl : b.body.name = other := Keyed.key_of_get? hclaim'
      exact ⟨b, (hclaims b).mpr ⟨hb, fun heq => hname heq.symm⟩, rfl⟩
  rules := hrules ▸ h.rules

lemma congr (h : Agrees shapes catalog c) (hclaims : ∀ k, k ∈ c'.claims ↔ k ∈ c.claims)
    (hrules : ∀ r ∈ c'.rules, r ∈ c.rules) : Agrees shapes catalog c' where
  tables := h.tables
  claims k hk := h.claims k ((hclaims k).mp hk)
  stored name claim hclaim := by
    obtain ⟨k, hk, hbody⟩ := h.stored name claim hclaim
    exact ⟨k, (hclaims k).mpr hk, hbody⟩
  rules r hr := h.rules r (hrules r hr)

end Agrees

/-! ### Tables of the database -/

lemma catalog_congr (n : Naming) {db db' : Database}
    (h : db'.schema.tables = db.schema.tables) : db'.catalog n = db.catalog n := by
  have hschema : ∀ db : Database, db.schema.catalog n = db.catalog n := fun db => by
    have hnames : db.schema.tables.map Table.name = db.tables.map Table.name := by
      rw [Database.schema, List.map_map]
      rfl
    have hshape : ∀ name, db.schema.shape? name = db.shape? name := fun name => by
      rw [Database.shape?, Database.shape?, Database.schema, List.find?_map, Option.map_map]
      rfl
    unfold Database.catalog Database.userTables
    rw [hnames, funext hshape]
  have htables : ∀ db db' : Database, db'.tables = db.tables → db'.catalog n = db.catalog n := by
    rintro ⟨tables, views⟩ ⟨tables', views'⟩ rfl
    rfl
  rw [← hschema db', ← hschema db, htables _ _ h]

lemma exists_table_of_catalog {n : Naming} {db : Database} {name : String} {shape : TableShape}
    (h : (db.catalog n).table? name = some shape) :
    ∃ t ∈ db.tables, t.name = name ∧ t.shape = shape ∧ Database.isUserTable n name = true := by
  have hfold : ∀ (shapes : List TableShape) (catalog : Catalog),
      ∀ x ∈ (shapes.foldl Catalog.insertTable catalog).tables, x ∈ shapes ∨ x ∈ catalog.tables := by
    intro shapes
    induction shapes with
    | nil => exact fun catalog x hx => .inr hx
    | cons t shapes ih =>
      intro catalog x hx
      obtain hx | hx := ih _ x hx
      · exact .inl (List.mem_cons_of_mem _ hx)
      · obtain rfl | hx := Keyed.mem_insert hx
        · exact .inl List.mem_cons_self
        · exact .inr hx
  have hname : shape.name = name := Keyed.key_of_get? h
  obtain hmem | hmem := hfold _ _ shape (List.mem_of_find?_eq_some h)
  · obtain ⟨name', hname', hshape⟩ := List.mem_filterMap.mp hmem
    obtain ⟨t, ht, rfl⟩ := Option.map_eq_some_iff.mp hshape
    have htname : (t.name == name') = true :=
      List.find?_some (p := fun t : Table => t.name == name') ht
    obtain rfl : name' = name := (beq_iff_eq.mp htname).symm.trans hname
    exact ⟨t, List.mem_of_find?_eq_some ht, hname, rfl, (List.mem_filter.mp hname').2⟩
  · cases hmem

/-! ### Loading -/

lemma catalog_definitions (n : Naming) (db : Database) :
    (db.catalog n).claims = [] ∧ (db.catalog n).rules = [] := by
  have hfold : ∀ (shapes : List TableShape) (catalog : Catalog),
      (shapes.foldl Catalog.insertTable catalog).claims = catalog.claims ∧
        (shapes.foldl Catalog.insertTable catalog).rules = catalog.rules := by
    intro shapes
    induction shapes with
    | nil => exact fun catalog => ⟨rfl, rfl⟩
    | cons t shapes ih => exact fun catalog => ih (catalog.insertTable t)
  exact hfold _ Catalog.empty

lemma loadCatalog_eq_ok {n : Naming} {db : Database} {c : Contents} {catalog : Catalog}
    (hc : Contains db c) (h : loadCatalog n db = .ok catalog) :
    Agrees (db.catalog n).tables catalog c ∧ ∀ r ∈ c.rules, r.body.IsReadable := by
  unfold loadCatalog at h
  obtain ⟨ks, hks, h⟩ := bind_eq_ok.mp h
  obtain ⟨rs, hrs, h⟩ := bind_eq_ok.mp h
  cases h
  obtain ⟨ks', hks', hkperm⟩ := hc.claims_isOk
  obtain rfl : ks' = ks := Except.ok.inj (hks'.symm.trans (mapError_eq_ok.mp hks))
  obtain ⟨hreadable, hrperm⟩ := hc.rules_eq_ok (mapError_eq_ok.mp hrs)
  obtain ⟨stored, hstored, rfl⟩ := exists_map_of_perm hrperm
  refine ⟨?_, hreadable⟩
  obtain ⟨hnoclaims, hnorules⟩ := catalog_definitions n db
  have hstart : Agrees (db.catalog n).tables (db.catalog n) {} :=
    ⟨rfl, by simp, by simp [Catalog.claim?, Keyed.get?, hnoclaims], by simp⟩
  have hclaims := Keyed.foldl_insert
    (fun ks catalog => Agrees (db.catalog n).tables catalog { claims := ks }) hstart
    (fun _ _ _ hmem h => h.insertClaim rfl hmem)
    (((hkperm.map fun k => k.body.name).nodup_iff).mpr hc.claims.keys)
  have hrules := Keyed.foldl_insert (f := fun catalog r => catalog.insertRule r.reread.body)
    (fun rs catalog => Agrees (db.catalog n).tables catalog { rules := rs, claims := ks'.reverse })
    hclaims (fun _ r _ hmem h => h.insertRule (r := r) (Rule.key_reread _)
      (Rule.references_reread _) (by rfl) fun b hb => (hmem b).mp hb)
    (((hstored.map fun r => r.body.key).nodup_iff).mpr hc.rules.keys)
  rw [List.foldl_map]
  refine hrules.congr (fun k => ?_) fun r hr => ?_
  · simp [hkperm.mem_iff]
  · simpa [hstored.mem_iff] using hr

/-- The catalog can be loaded if all rules can be read. -/
lemma loadCatalog_isOk {n : Naming} {db : Database} {c : Contents} (hc : Contains db c)
    (hreadable : ∀ r ∈ c.rules, r.body.IsReadable) : ∃ catalog, loadCatalog n db = .ok catalog := by
  obtain ⟨ks, hks, -⟩ := hc.claims_isOk
  obtain ⟨rs, hrs⟩ := hc.rules_isOk hreadable
  unfold loadCatalog
  rw [hks, hrs]
  exact ⟨_, rfl⟩

end Admin

end RowPolicy
