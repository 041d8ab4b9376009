import RowPolicy.Proofs.Access.Memberships
import RowPolicy.Proofs.Admin.Readback
import RowPolicy.Proofs.Admin.Regeneration
import RowPolicy.Proofs.Admin.ViewNames

/-!
# Rebuilds

Whether a rebuild succeeds is a matter of the claim queries alone. The view of a claim over a table
can always be read, and so can that of a rule once its claims are there. A query must be readable at
the place of its claim in the order of names, so it must not read the view of a later claim.
-/

namespace RowPolicy

open Sql Store

/-! ### The order of claims -/

lemma Cell.order_text_eq_lt (a b : String) :
    ((Cell.text a).order (.text b) == .lt) = true ↔ a < b := by
  have horder : (Cell.text a).order (.text b) =
      if a == b then .eq else if a < b then .lt else .gt := rfl
  rw [horder]
  by_cases hab : a = b
  · subst hab
    simp
  · by_cases hlt : a < b <;> simp [hab, hlt]

/-- Claims in the order of the cells with their names. -/
def Store.byName (ks : List ClaimRecord) : List ClaimRecord :=
  Text.sortByKey (fun a b : Cell => a.order b == .lt) (fun k => Cell.text k.body.name) ks

variable {ks : List ClaimRecord}

lemma Store.byName_ascending (h : (ks.map fun k => k.body.name).Nodup) :
    (byName ks).Pairwise fun k k' => k.body.name < k'.body.name := by
  have hperm : (byName ks).Perm ks := Text.perm_sortByKey ks
  have hnodup := (hperm.map fun k => k.body.name).nodup_iff.mpr h
  rw [List.Nodup, List.pairwise_map] at hnodup
  refine ((Text.pairwise_sortByKey (fun a b c => ?_) (fun a b => ?_) ks).and hnodup).imp ?_
  · simp only [Cell.order_text_eq_lt]
    exact String.lt_trans
  · rw [← Bool.not_eq_true, Cell.order_text_eq_lt, Cell.order_text_eq_lt]
    exact String.lt_asymm
  · rintro k k' ⟨hle, hne⟩
    rw [← Bool.not_eq_true, Cell.order_text_eq_lt] at hle
    exact Decidable.byContradiction fun hnot => hne (String.le_antisymm hle hnot)

namespace Store.Contains

variable {db : Database} {c : Contents}

lemma exists_claims (h : Contains db c) :
    ∃ stored, stored.Perm c.claims ∧ Store.claims db = .ok (byName stored) := by
  obtain ⟨t, stored, ht, hschema, hcells, hperm⟩ := h.claims.holds.exists_rows
  have htable : Store.table db claimTable ["record", "name"] = .ok t :=
    table_of_schema ht hschema (by decide)
  have hrows : List.Forall₂ (fun row k => row.cells = claimRows.cells k) t.rows stored := by
    rwa [← List.forall₂_eq_eq_eq, List.forall₂_map_left_iff, List.forall₂_map_right_iff] at hcells
  have hsorted : List.Forall₂ (fun row k => row.cells = claimRows.cells k)
      (ordered t "name" t.rows) (byName stored) := by
    refine forall₂_sortByKey hrows fun row k hrow => ?_
    rw [cell_of_schema hschema]
    exact congrArg (List.getD · 0 Cell.null) hrow
  have hcells' : (ordered t "name" t.rows).map Row.cells = (byName stored).map claimRows.cells := by
    rwa [← List.forall₂_eq_eq_eq, List.forall₂_map_left_iff, List.forall₂_map_right_iff]
  have hread : readRecords ClaimRecord.decode t (ordered t "name" t.rows) =
      (byName stored).mapM fun k => readRecord ClaimRecord.decode k.toJson.compact := by
    refine readRecords_eq ?_ hcells'
    intro row k hrow
    exact (cell_of_schema hschema row "record").trans (recordText_claim hrow)
  have hlisted : (byName stored).Perm c.claims := (Text.perm_sortByKey stored).trans hperm
  refine ⟨stored, hperm, ?_⟩
  rw [Store.claims, show ofStorage (Store.table db claimTable _) = .ok t from
    mapError_eq_ok.mpr htable, ok_bind, hread]
  exact mapM_eq_self fun k hk => h.readRecord_claim (hlisted.mem_iff.mp hk)

lemma claims_ascending (h : Contains db c) (hks : Store.claims db = .ok ks) :
    ks.Pairwise fun k k' => k.body.name < k'.body.name := by
  obtain ⟨stored, hperm, hclaims⟩ := h.exists_claims
  cases hks.symm.trans hclaims
  exact byName_ascending ((hperm.map fun k => k.body.name).nodup_iff.mpr h.claims.keys)

end Store.Contains

/-! ### Views that can be read -/

lemma Binder.Knows.extends {b b' : Binder} {n : Naming} {l : Lookup} (h : b.Knows n l)
    (hextends : b.Extends b') : b'.Knows n l := by
  obtain ⟨hprincipal, source, headings, hasRowId, hfind, hall⟩ := h
  exact ⟨hextends.1 ▸ hprincipal, source, headings, hasRowId, hextends.2 _ _ hfind, hall⟩

namespace Naming

variable {n : Naming} {db : Database} {k : Claim}

lemma canRead_claimView {table : String} {t : Table}
    (hinstalled : db.Installed (n.claimView k.name) (n.claimViewSql k))
    (hsource : k.source = .table table) (ht : db.table? table = some t)
    (hformed : t.isWellFormed = true)
    (hcolumns : ∀ c ∈ k.columns, t.shape.hasColumn c.1 = true) :
    db.CanRead (n.claimView k.name) := by
  obtain ⟨places, hplaces, hnames, -⟩ := Table.exists_rename? hformed hcolumns
  refine ⟨_, find_claimView hinstalled hsource ht hplaces, fun hnil => ?_⟩
  have hlength := congrArg List.length hnil
  change (Binder.distinctNames [] (places.map Prod.snd)).length = 0 at hlength
  have hcount := congrArg List.length hnames
  rw [Binder.length_distinctNames, List.length_map] at hlength
  rw [List.length_map, hlength, List.length_map, Claim.columns] at hcount
  cases hcount

/-- The view of a read rule can be read if its lookups can be bound. -/
lemma canRead_readView {r : Rule} {t : Table} {catalog : Catalog}
    (hinstalled : db.Installed (n.readView t.name)
      (n.readViewSql ⟨t.name, r.projection, r.filter .always⟩))
    (ht : db.table? t.name = some t) (hformed : t.isWellFormed = true) (hcolumns : t.columns ≠ [])
    (hvalid : r.validate = .ok ()) (hresolves : r.Resolves catalog t.shape)
    (hknows : ∀ l ∈ r.lookups, (db.binder true).Knows n l) : db.CanRead (n.readView t.name) := by
  obtain ⟨query, rest, hparse, hview⟩ := hinstalled.exists_view
  have hfinite : (ReadView.mk t.name r.projection (r.filter .always)).filter.IsFinite :=
    Rule.filter_isFinite hvalid trivial
  rcases parse_readView n hfinite with ⟨-, _, hcreate, os, e, rfl, hos, he⟩ | ⟨-, herror⟩
  · rw [hcreate] at hparse
    have htable : (db.binder true).find t.name =
        .ok (.table t.name, Database.tableHeadings t, !t.withoutRowId) := Database.find_table ht
    obtain ⟨shown, hshown⟩ := (Rule.canShow hvalid hresolves hformed hcolumns).project?_isSome
    have houtputs := Binder.outputs_projection (b := db.binder true) (s := t.scope t.name) hos
    rw [hshown] at houtputs
    have hfilter : ((db.binder true).expr [t.scope t.name] e).isOk = true :=
      (Binder.fragment_isOk (Binder.claimsFit_of_find htable n) he).mpr
        ((Rule.filter_resolves hformed rfl hresolves).mpr hknows)
    obtain ⟨⟨filter, a⟩, hfilter⟩ := isOk_iff.mp hfilter
    have hquery := Binder.select_eq_ok.mpr
      ⟨_, _, _, _, _, _, htable, houtputs, hfilter, rfl, rfl⟩
    rw [createView_inj hparse] at hquery
    refine ⟨_, (Database.find_view_eq_ok hinstalled.noTable hview).mpr ⟨_, hquery, rfl⟩, ?_⟩
    intro hnil
    have hlength := congrArg List.length hnil
    simp only [Binder.length_distinctNames, List.length_map, List.length_nil] at hlength
    exact Scope.project?_ne_nil hshown (List.length_eq_zero_iff.mp hlength)
  · rw [herror] at hparse
    cases hparse

end Naming

namespace Admin

variable {n : Naming} {ids : Nat → Uuid} {base user sim : Database} {clash : String → Prop}
  {w : Work} {c : Contents} {catalog : Catalog} {f : Definition → List Rendered}
  {ys : List Definition} {k : ClaimRecord} {past : List State} {x : State} {plan : CompiledRule}
  {rest : List Rendered}

/-- The only view of a rule is that of a read rule. -/
lemma view_of_mem_renderRule {y : Rendered} {sql : String} (hy : y ∈ n.renderRule plan)
    (hsql : y.body = .view sql) :
    ∃ v a, plan = .read v a ∧ y.identifier = n.readView v.table ∧ sql = n.readViewSql v := by
  cases plan with
  | read v a =>
    rw [Naming.renderRule.eq_def, List.mem_cons] at hy
    obtain rfl | hy := hy
    · cases hsql
      exact ⟨v, a, rfl, rfl, rfl⟩
    · cases a with
      | error e => cases hy
      | ok a =>
        rw [List.mem_singleton] at hy
        subst hy
        cases hsql
  | write g =>
    rw [Naming.renderRule, List.mem_singleton] at hy
    subst hy
    cases g <;> cases hsql

/-- An artifact of a rule can be installed if the claims of the rule can be looked up. -/
lemma canInstall_rule {r : Rule} {t : Table} {y : Rendered} (hplan : r.plan? t.shape = some plan)
    (hy : y ∈ n.renderRule plan) (ht : sim.table? t.name = some t)
    (hformed : t.isWellFormed = true) (hcolumns : t.columns ≠ []) (hvalid : r.validate = .ok ())
    (hresolves : r.Resolves catalog t.shape) (hnew : sim.AreNew (y :: rest))
    (hknows : ∀ l ∈ r.lookups, (sim.binder true).Knows n l) :
    sim.CanInstall y := by
  intro sql hsql
  have hcreates := hnew.creates y List.mem_cons_self sql hsql
  have hextends := (hnew.cons true).2
  refine ⟨hcreates, ?_⟩
  rw [Database.withArtifact_view hsql] at hextends ⊢
  obtain ⟨v, a, rfl, hidentifier, rfl⟩ := view_of_mem_renderRule hy hsql
  obtain rfl : v = ⟨t.name, r.projection, r.filter .always⟩ := by
    unfold Rule.plan? at hplan
    cases hop : r.operation <;> rw [hop] at hplan
    case read =>
      cases hplan
      rfl
    case create => cases hplan
    case update | delete =>
      obtain ⟨key, -, hkey⟩ := Option.map_eq_some_iff.mp hplan
      cases hkey
  rw [hidentifier] at hcreates hextends ⊢
  exact Naming.canRead_readView hcreates.installed ht hformed hcolumns hvalid hresolves
    fun l hl => (hknows l hl).extends hextends

/-! ### Definitions that can follow others -/

/-- The claims that could be installed can be looked up in the end. -/
lemma knows_of_canFollow {l : Lookup} (hnew : sim.AreNew (ys.flatMap f ++ rest))
    (hfollow : ∀ before y after, ys = before ++ y :: after →
      y.CanFollow n (sim.withArtifacts (before.flatMap f)) (f y)) (hk : .claim k ∈ ys)
    (hfk : f (.claim k) = [n.renderClaim k.body]) (hclaim : l.claim = k.body.name)
    (hexposes : ∀ filter, l.property = some filter → k.body.exposes filter.property = true) :
    ((sim.withArtifacts (ys.flatMap f)).binder true).Knows n l := by
  obtain ⟨before, after, rfl⟩ := List.append_of_mem hk
  obtain ⟨hcreates, found, hfind, -⟩ := (hfollow before _ after rfl).2 [] _ [] hfk _ rfl
  have hinstalled := hcreates.installed
  have hknows := Naming.knows_of_find hinstalled hfind hclaim hexposes
  have hsplit : (before ++ Definition.claim k :: after).flatMap f =
      (before.flatMap f ++ [n.renderClaim k.body]) ++ after.flatMap f := by
    rw [List.flatMap_append, List.flatMap_cons, hfk, List.append_assoc]
  rw [hsplit, List.append_assoc] at hnew
  obtain ⟨hafter, -⟩ := hnew.append true
  rw [hsplit, Database.withArtifacts_append]
  refine hknows.extends ?_
  have hextends := (hafter.append true).2
  rwa [Database.withArtifacts_append] at hextends ⊢

/-- The query of a claim can be read, and so can the view that is then created for the claim. -/
structure CanQuery (n : Naming) (db : Database) (k : Claim) (sql : String) : Prop where
  checked : checkClaimQuery db (n.claimView k.name) sql = .ok ()
  readable : (db.withArtifact (n.renderClaim k)).CanRead (n.claimView k.name)

/-- A claim can follow others exactly if its query, if it has one, can be read. -/
lemma Sound.canFollow_claim (h : Sound n ids base clash (fun _ => True) w c)
    (hbase : ∀ t ∈ base.tables, t.isWellFormed = true) (hk : k ∈ c.claims)
    (htables : sim.tables = w.db.tables) (hnew : sim.AreNew (n.renderClaim k.body :: rest)) :
    Definition.CanFollow n sim (.claim k) [n.renderClaim k.body] ↔
      ∀ sql, k.body.source = .query sql → CanQuery n sim k.body sql := by
  constructor
  · rintro ⟨hpasses, hinstall⟩ sql hsql
    exact ⟨hpasses sql hsql, (hinstall [] _ [] rfl _ rfl).2⟩
  · intro hqueries
    refine ⟨fun sql hsql => (hqueries sql hsql).checked, fun first y rest hsplit => ?_⟩
    obtain ⟨rfl, rfl⟩ : first = [] ∧ y = n.renderClaim k.body := by
      cases first with
      | nil => exact ⟨rfl, (List.cons.inj hsplit).1.symm⟩
      | cons a first => cases first <;> cases hsplit
    rintro sql ⟨⟩
    have hcreates := hnew.creates _ List.mem_cons_self _ rfl
    refine ⟨hcreates, ?_⟩
    cases hsource : k.body.source with
    | query sql => exact (hqueries sql hsource).readable
    | table table =>
      obtain ⟨t, ht, -, hformed, -, hcolumns⟩ := h.exists_source hbase hk hsource
      refine Naming.canRead_claimView hcreates.installed hsource ?_ hformed hcolumns
      change sim.table? table = some t
      rw [Database.table?, htables]
      exact ht

lemma Sound.canFollow_rule {r : RuleRecord} {first : List Rendered}
    (h : Sound n ids base clash (fun _ => True) w c)
    (hbase : ∀ t ∈ base.tables, t.isWellFormed = true)
    (hfilled : ∀ t ∈ base.tables, t.columns ≠ [])
    (hplan : w.catalog.compileRule r.body = .ok plan) (htables : sim.tables = w.db.tables)
    (hnew : sim.AreNew (first ++ (n.renderRule plan ++ rest)))
    (hknows : ∀ l ∈ r.body.lookups, (sim.binder true).Knows n l) :
    Definition.CanFollow n (sim.withArtifacts first) (.rule r) (n.renderRule plan) := by
  obtain ⟨hvalid, shape, hshape, hresolves, hplan⟩ := Catalog.compileRule_eq_ok.mp hplan
  obtain ⟨t, ht, hname, rfl, -, hformed, -⟩ := h.exists_table hbase hshape
  have hcolumns := h.columns_ne_nil hfilled ht
  refine ⟨trivial, fun before y after hsplit => ?_⟩
  rw [hsplit, List.append_assoc, ← List.append_assoc] at hnew
  obtain ⟨hnext, hextends⟩ := hnew.append true
  rw [← Database.withArtifacts_append]
  refine canInstall_rule hplan (by rw [hsplit]; simp) ?_ hformed hcolumns hvalid hresolves hnext
    fun l hl => (hknows l hl).extends hextends
  rw [Database.table?_withArtifacts, Database.table?, htables, hname]
  exact ht

/-- Claims can follow each other exactly if their queries can be read. -/
lemma Sound.canFollow_claims {more : List Rendered}
    (h : Sound n ids base clash (fun _ => True) w c)
    (hbase : ∀ t ∈ base.tables, t.isWellFormed = true) (hks : ∀ k ∈ ks, k ∈ c.claims)
    (hcompiles : ∀ y, c.Defines y → y.Compiles n w.catalog (f y))
    (htables : sim.tables = w.db.tables)
    (hnew : sim.AreNew ((ks.map Definition.claim).flatMap f ++ more)) :
    (∀ before y after, ks.map Definition.claim = before ++ y :: after →
      y.CanFollow n (sim.withArtifacts (before.flatMap f)) (f y)) ↔
    ∀ done k rest sql, ks = done ++ k :: rest → k.body.source = .query sql →
      CanQuery n (sim.withArtifacts (done.map fun k => n.renderClaim k.body)) k.body sql := by
  have hflat : ∀ done : List ClaimRecord, (∀ k ∈ done, k ∈ ks) →
      (done.map Definition.claim).flatMap f = done.map fun k => n.renderClaim k.body := by
    intro done hdone
    rw [List.flatMap_map, List.map_eq_flatMap]
    exact List.flatMap_congr fun k hk => (hcompiles (.claim k) (hks k (hdone k hk))).2
  have hone : ∀ done k rest, ks = done ++ k :: rest →
      (Definition.CanFollow n (sim.withArtifacts ((done.map Definition.claim).flatMap f)) (.claim k)
        (f (.claim k)) ↔ ∀ sql, k.body.source = .query sql →
        CanQuery n (sim.withArtifacts (done.map fun k => n.renderClaim k.body)) k.body sql) := by
    rintro done k rest rfl
    rw [hflat _ fun k hk => hk, List.map_append, List.map_cons, List.append_assoc] at hnew
    rw [hflat done fun k hk => List.mem_append_left _ hk,
      (hcompiles (.claim k) (hks k (by simp))).2]
    refine h.canFollow_claim hbase (hks k (by simp)) ?_ (hnew.append true).1
    rw [Database.tables_withArtifacts, htables]
  constructor
  · intro hall done k rest sql hsplit
    refine (hone done k rest hsplit).mp (hall _ _ (rest.map Definition.claim) ?_) sql
    rw [hsplit, List.map_append, List.map_cons]
  · intro hall before y after hsplit
    obtain ⟨done, rest, rfl, rfl, hrest⟩ := List.map_eq_append_iff.mp hsplit
    obtain ⟨k, rest, rfl, rfl, -⟩ := List.map_eq_cons_iff.mp hrest
    exact (hone done k rest rfl).mpr fun sql => hall done k rest sql rfl

lemma Sound.canFollow_rules {claims rules : List Definition}
    (h : Sound n ids base clash (fun _ => True) w c)
    (hbase : ∀ t ∈ base.tables, t.isWellFormed = true) (hfilled : ∀ t ∈ base.tables, t.columns ≠ [])
    (hclaims : ∀ k ∈ c.claims, .claim k ∈ claims) (hrules : ∀ y ∈ rules, ∃ r ∈ c.rules, y = .rule r)
    (hcompiles : ∀ y, c.Defines y → y.Compiles n w.catalog (f y))
    (htables : sim.tables = w.db.tables) (hnew : sim.AreNew ((claims ++ rules).flatMap f))
    (hfollow : ∀ before y after, claims = before ++ y :: after →
      y.CanFollow n (sim.withArtifacts (before.flatMap f)) (f y)) :
    ∀ before y after, rules = before ++ y :: after →
      y.CanFollow n ((sim.withArtifacts (claims.flatMap f)).withArtifacts (before.flatMap f))
        (f y) := by
  rintro before y after rfl
  obtain ⟨r, hr, rfl⟩ := hrules y (by simp)
  obtain ⟨plan, hplan, hplanned⟩ := hcompiles (.rule r) hr
  have hfinds := Catalog.Compiles.finds ⟨plan, hplan⟩
  rw [List.flatMap_append] at hnew
  have hknows : ∀ l ∈ r.body.lookups,
      ((sim.withArtifacts (claims.flatMap f)).binder true).Knows n l := by
    intro l hl
    obtain ⟨claim, hclaim, hexposes⟩ := hfinds l hl
    obtain ⟨k, hk, rfl⟩ := h.defined.catalog.stored _ _ hclaim
    have hname : k.body.name = l.claim := Keyed.key_of_get? hclaim
    exact knows_of_canFollow hnew hfollow (hclaims k hk) (hcompiles (.claim k) hk).2 hname.symm
      hexposes
  obtain ⟨hnext, -⟩ := hnew.append true
  rw [List.flatMap_append, List.flatMap_cons, hplanned] at hnext
  rw [hplanned]
  refine h.canFollow_rule hbase hfilled hplan ?_ hnext hknows
  rw [Database.tables_withArtifacts, htables]

/-- A rebuild succeeds exactly if every claim query can be read at the place of its claim. It leaves
the tables of the definitions. -/
lemma Sound.rebuild_isOk {s : Setting} {existing : List ArtifactRecord} {rs : List RuleRecord}
    (h : Sound s.naming s.ids base clash (fun _ => True) w c)
    (hbase : ∀ t ∈ base.tables, t.isWellFormed = true)
    (hfilled : ∀ t ∈ base.tables, t.columns ≠ [])
    (hclash : ∀ k ∈ c.claims, ¬ clash k.body.name ∧ ¬ c.HasTwin k.body.name)
    (hviews : ∀ v ∈ base.views, Database.isReserved v.name = false) (hnow : s.now.IsRegular)
    (hgiven : ∀ r ∈ c.rules, r.body.reread = r.body)
    (hexisting : Store.artifacts w.db = .ok existing) (hks : Store.claims w.db = .ok ks)
    (hrs : Store.rules w.db = .ok rs) (hsim : w.db.withoutViews
      (existing.flatMap ArtifactRecord.viewNames) = sim) :
    ((Admin.rebuild s w).isOk = true ↔ ∀ done k rest sql, ks = done ++ k :: rest →
      k.body.source = .query sql → CanQuery s.naming
        (sim.withArtifacts (done.map fun k => s.naming.renderClaim k.body)) k.body sql) ∧
    ∀ w' summaries, Admin.rebuild s w = .ok (w', summaries) → ∃ sim' done,
      sim'.tables = w.db.tables ∧ Regenerated c w.catalog sim' done w' := by
  have hc := h.defined.stored
  obtain ⟨existing', hexisting', haperm⟩ := hc.artifacts_isOk
  cases hexisting.symm.trans hexisting'
  obtain ⟨ks', hks', hkperm⟩ := hc.claims_isOk
  cases hks.symm.trans hks'
  have hrperm : rs.Perm c.rules := by
    have hread : c.rules.map RuleRecord.reread = c.rules :=
      (List.map_congr_left fun r hr => r.reread_eq (hgiven r hr)).trans (List.map_id c.rules)
    exact hread ▸ (hc.rules_eq_ok hrs).2
  have hserved := fun y hy => h.registered.served y hy trivial
  choose! f hrenders hserves using hserved
  have hcompiles : ∀ y, c.Defines y → y.Compiles s.naming w.catalog (f y) := by
    refine fun y hy => (hrenders y hy).compiles ?_
    rintro r rfl
    exact hgiven r hy
  -- The definitions in the order in which they are installed.
  have hperm : (ks.map Definition.claim ++ (installOrder rs).map Definition.rule).Perm
      c.definitions :=
    (hkperm.map _).append (((Text.perm_sortByKey rs).trans hrperm).map _)
  have hdefines : ∀ y ∈ ks.map Definition.claim ++ (installOrder rs).map Definition.rule,
      c.Defines y := fun y hy => Contents.mem_definitions.mp (hperm.mem_iff.mp hy)
  have hnodup := hperm.nodup_iff.mpr h.defined.nodup_definitions
  have hdistinct := hnodup.map_on fun y hy z hz =>
    h.defined.ids_injective y z (hdefines y hy) (hdefines z hz)
  have hnew := h.areNew hclash hviews haperm hdefines hnodup fun y hy =>
    ⟨hrenders y (hdefines y hy), hserves y (hdefines y hy)⟩
  rw [hsim] at hnew
  have htables : sim.tables = w.db.tables := by rw [← hsim, Database.tables_withoutViews]
  obtain ⟨hiff, hend⟩ := h.rebuild_iff hclash hviews hnow hexisting hks hrs hsim
    (fun y hy => hcompiles y (hdefines y hy)) hdistinct
  refine ⟨hiff.trans ?_, hend⟩
  have hrules := h.canFollow_rules hbase hfilled
    (fun k hk => List.mem_map_of_mem (hkperm.mem_iff.mpr hk)) (fun y hy => ?_) hcompiles htables
    hnew
  · rw [List.flatMap_append] at hnew
    rw [and_iff_left_of_imp hrules]
    exact h.canFollow_claims hbase (fun k hk => hkperm.mem_iff.mp hk) hcompiles htables hnew
  · obtain ⟨r, hr, rfl⟩ := List.mem_map.mp hy
    exact ⟨r, ((Text.perm_sortByKey rs).trans hrperm).mem_iff.mp hr, rfl⟩

/-! ### Rebuilds of reached states -/

lemma Reached.exists_claims (h : Reached n ids user past x) (hu : user.IsUnmanaged)
    (hids : Set.InjOn ids (Set.Iio x.issued)) :
    ∃ ks, Store.claims x.db = .ok ks ∧ (ks.map Stamped.body).Perm x.policy.claims ∧
      ks.Pairwise fun k k' => k.body.name < k'.body.name := by
  obtain ⟨catalog, c, hpolicy, hsound⟩ := h.exists_contents hu hids
  have hc : Contains x.db c := hsound.defined.stored
  obtain ⟨ks, hks, hperm⟩ := hc.claims_isOk
  rw [← hpolicy]
  exact ⟨ks, hks, hperm.map _, hc.claims_ascending hks⟩

lemma Reached.exists_loaded {rs : List RuleRecord} (h : Reached n ids user past x)
    (hu : user.IsUnmanaged) (hids : Set.InjOn ids (Set.Iio x.issued))
    (hclash : ∀ k ∈ x.policy.claims, ¬ Clashed (x :: past) k.name)
    (hrs : Store.rules x.db = .ok rs) :
    ∃ catalog c, loadCatalog n x.db = .ok catalog ∧ policyOf c = x.policy ∧
      Sound n ids user.managed (Clashed past) (fun _ => True) ⟨x.db, catalog, x.issued⟩ c ∧
      ∀ k ∈ c.claims, ¬ Clashed past k.body.name ∧ ¬ c.HasTwin k.body.name := by
  obtain ⟨catalog₀, c, hpolicy, hsound⟩ := h.exists_contents hu hids
  have hc : Contains x.db c := hsound.defined.stored
  obtain ⟨catalog, hload⟩ := loadCatalog_isOk (n := n) hc (hc.rules_eq_ok hrs).1
  refine ⟨catalog, c, hload, hpolicy, hsound.reload hload, fun k hk => ?_⟩
  rw [← hpolicy] at hclash
  have hnot := hclash k.body (List.mem_map_of_mem hk)
  exact ⟨fun hpast => hnot (hpast.mono x),
    fun htwin => hnot (clashed_of_hasTwin List.mem_cons_self hc htwin)⟩

section

variable {rs : List RuleRecord} {as : List ArtifactRecord} {now : Instant}
  (h : Reached n ids user past x) (hu : user.IsUnmanaged)
  (hcolumns : ∀ t ∈ user.tables, t.columns ≠ [])
  (hviews : ∀ v ∈ user.views, Database.isReserved v.name = false)
  (hids : Set.InjOn ids (Set.Iio x.issued))
  (hclash : ∀ k ∈ x.policy.claims, ¬ Clashed (x :: past) k.name)
  (hrs : Store.rules x.db = .ok rs) (hgiven : ∀ r ∈ x.policy.rules, r.reread = r)
  (hnow : now.IsRegular) (has : Store.artifacts x.db = .ok as)

include h hu hcolumns hviews hids hclash hrs hgiven hnow has

lemma Reached.rebuild_isOk_iff (hks : Store.claims x.db = .ok ks) :
    (transaction n false x.db x.issued (Admin.rebuild ⟨n, ids, now⟩)).isOk = true ↔
      ∀ done k rest sql, ks = done ++ k :: rest → k.body.source = .query sql →
        CanQuery n ((x.db.withoutViews (as.flatMap ArtifactRecord.viewNames)).withArtifacts
          (done.map fun k => n.renderClaim k.body)) k.body sql := by
  obtain ⟨catalog, c, hload, hpolicy, hsound, hnoclash⟩ := h.exists_loaded hu hids hclash hrs
  rw [← hpolicy] at hgiven
  obtain ⟨hiff, -⟩ := Sound.rebuild_isOk (s := ⟨n, ids, now⟩) hsound hu.wellFormed_managed
    (Database.columns_managed hcolumns) hnoclash hviews hnow
    (fun r hr => hgiven r.body (List.mem_map_of_mem hr)) has hks hrs rfl
  refine Iff.trans ?_ hiff
  change (loadCatalog n x.db >>= _).isOk = true ↔ _
  rw [hload, ok_bind]
  exact isOk_map fun _ _ => rfl

/-- A rebuild that succeeds leaves the stored definitions and the entries of the registry as they
were. -/
lemma Reached.of_rebuild {db' : Database} {issued' : Nat} {summaries : List Summary}
    (hrebuilt : transaction n false x.db x.issued (Admin.rebuild ⟨n, ids, now⟩) =
      .ok (db', issued', summaries)) :
    db'.table? ruleTable.name = x.db.table? ruleTable.name ∧
    db'.table? claimTable.name = x.db.table? claimTable.name ∧
    ∃ as', Store.artifacts db' = .ok as' ∧
      (as'.map ArtifactRecord.entry).Perm (as.map ArtifactRecord.entry) := by
  obtain ⟨catalog, c, hload, hpolicy, hsound, hnoclash⟩ := h.exists_loaded hu hids hclash hrs
  have hc : Contains x.db c := hsound.defined.stored
  rw [← hpolicy] at hgiven
  have hgiven' : ∀ r ∈ c.rules, r.body.reread = r.body := fun r hr =>
    hgiven r.body (List.mem_map_of_mem hr)
  obtain ⟨ks, hks, -⟩ := hc.claims_isOk
  obtain ⟨as₀, has₀, haperm⟩ := hc.artifacts_isOk
  cases has.symm.trans has₀
  obtain ⟨catalog', w', hload', hrebuild, rfl, rfl⟩ := transaction_eq_ok hrebuilt
  cases hload.symm.trans hload'
  obtain ⟨-, hend⟩ := Sound.rebuild_isOk (s := ⟨n, ids, now⟩) hsound hu.wellFormed_managed
    (Database.columns_managed hcolumns) hnoclash hviews hnow hgiven' has hks hrs rfl
  obtain ⟨sim', done, htables, hregenerated⟩ := hend w' summaries hrebuild
  refine ⟨hregenerated.table?_eq hc htables (.inl rfl),
    hregenerated.table?_eq hc htables (.inr rfl), ?_⟩
  obtain ⟨c', hrules, hclaims, hsound'⟩ :=
    Sound.rebuild (s := ⟨n, ids, now⟩) hsound hnow hrebuild
  obtain ⟨as', has', haperm'⟩ := hsound'.defined.stored.artifacts_isOk
  refine ⟨as', has', (haperm'.map _).trans (.trans ?_ (haperm.map _).symm)⟩
  exact hsound.entries_perm hsound' hregenerated.catalog hrules hclaims hgiven'

end

/-- Claims do not clash in the first state after the start if their names differ in more than
case. -/
lemma Reached.not_clashed (h : Reached n ids user [⟨(Admin.start false user).1, 0, {}⟩] x)
    (hu : user.IsUnmanaged) (hids : Set.InjOn ids (Set.Iio x.issued))
    (hnames : ∀ k ∈ x.policy.claims, ∀ k' ∈ x.policy.claims, Text.sameName k'.name k.name = true →
      k'.name = k.name) :
    ∀ k ∈ x.policy.claims, ¬ Clashed [x, ⟨(Admin.start false user).1, 0, {}⟩] k.name := by
  rintro k hk ⟨y, hy, ks, hks, k', hk', hne, hsame⟩
  have hstored := List.mem_map_of_mem (f := Stamped.body) hk'
  obtain rfl | hy := List.mem_cons.mp hy
  · obtain ⟨ks', hks', hperm, -⟩ := h.exists_claims hu hids
    cases hks.symm.trans hks'
    exact hne (hnames k hk k'.body (hperm.mem_iff.mp hstored) hsame)
  · obtain rfl := List.mem_singleton.mp hy
    obtain ⟨ks', hks', hperm, -⟩ :=
      (Reached.start : Reached n ids user [] _).exists_claims hu (by simp [Set.InjOn])
    cases hks.symm.trans hks'
    exact absurd (hperm.mem_iff.mp hstored) List.not_mem_nil

lemma membersState_policy_rules : membersState.policy.rules = [membersCreate, membersRead] := by
  rw [membersState_policy]
  rfl

lemma membersState_rules : ∃ rs, Store.rules membersState.db = .ok rs := by
  refine isOk_iff.mp ((membersState_reached.isOk_iff members_isUnmanaged membersState_ids).1.mpr ?_)
  rw [membersState_policy_rules, List.forall_mem_cons, List.forall_mem_singleton]
  exact ⟨fun p hp => Option.some.inj hp ▸ by decide, fun p hp => by cases hp⟩

def couples : Database :=
  { tables := [{ name := "m", columns := [{ name := "p", type := "TEXT" },
      { name := "q", type := "TEXT" }] }] }

def coupled : Claim := ⟨"z", .table "m", "p", "q", []⟩

/-- A claim over the view of the other, which comes before it in the order of names. -/
def recoupled : Claim :=
  ⟨"a", .query "SELECT principal_id, related_id FROM tg_claim_z", "principal_id", "related_id", []⟩

def couplesState : State :=
  (Call.applyDocument ⟨[coupled, recoupled], []⟩).perform ⟨⟨"tg_"⟩, Uuid.nth, default⟩ false
    ⟨(Admin.start false couples).1, 0, {}⟩

lemma couples_isUnmanaged : couples.IsUnmanaged := by decide

lemma couplesState_reached : Reached ⟨"tg_"⟩ Uuid.nth couples
    [⟨(Admin.start false couples).1, 0, {}⟩] couplesState :=
  .call .start (by decide) false _

lemma couplesState_eval : couplesState.issued = 2 ∧
    couplesState.db.views.map View.name = ["tg_claim_z", "tg_claim_a"] ∧
    couplesState.db.tables.map Table.schema = couples.managed.tables.map Table.schema := by
  set_option maxRecDepth 100000 in decide +kernel

lemma couplesState_ids : Set.InjOn Uuid.nth (Set.Iio couplesState.issued) :=
  Uuid.injOn_nth (by rw [couplesState_eval.1]; omega)

lemma couplesState_policy : couplesState.policy = ⟨[recoupled, coupled], []⟩ := by
  have hpolicy : couplesState.policy = Policy.setClaim (Policy.setClaim {} coupled) recoupled := by
    unfold couplesState
    exact Call.perform_policy (by rw [← couplesState, couplesState_eval.1]; decide)
  rw [hpolicy]
  rfl

lemma couplesState_query {as : List ArtifactRecord}
    (has : Store.artifacts couplesState.db = .ok as) :
    ¬ CanQuery ⟨"tg_"⟩ (couplesState.db.withoutViews (as.flatMap ArtifactRecord.viewNames))
      recoupled "SELECT principal_id, related_id FROM tg_claim_z" := by
  intro hquery
  -- The registry has the views of both claims, so without them no view is left.
  have hgone : ∀ k ∈ couplesState.policy.claims,
      Naming.claimView ⟨"tg_"⟩ k.name ∈ as.flatMap ArtifactRecord.viewNames := by
    intro k hk
    obtain ⟨as', has', a, ha, hrendered⟩ := couplesState_reached.exists_claimView
      couples_isUnmanaged couplesState_ids hk
    cases has.symm.trans has'
    refine List.mem_flatMap.mpr ⟨a, ha, mem_viewNames.mpr ⟨?_, ?_⟩⟩
    · rw [show a.kind = .claimView from congrArg Rendered.kind hrendered]
      rfl
    · exact (congrArg Rendered.identifier hrendered).symm
  rw [couplesState_policy, List.forall_mem_cons, List.forall_mem_singleton] at hgone
  have hviews :
      (couplesState.db.withoutViews (as.flatMap ArtifactRecord.viewNames)).views = [] := by
    rw [Database.views_withoutViews, List.filter_eq_nil_iff]
    intro v hv hkept
    refine absurd (Text.sameName_self v.name) (Bool.eq_false_iff.mp
      (of_decide_eq_true hkept v.name ?_))
    have hname := List.mem_map_of_mem (f := View.name) hv
    rw [couplesState_eval.2.1, List.mem_pair] at hname
    obtain hname | hname := hname
    · rw [hname, show "tg_claim_z" = Naming.claimView ⟨"tg_"⟩ coupled.name by decide]
      exact hgone.2
    · rw [hname, show "tg_claim_a" = Naming.claimView ⟨"tg_"⟩ recoupled.name by decide]
      exact hgone.1
  have hschema : (couplesState.db.withoutViews (as.flatMap ArtifactRecord.viewNames)).schema =
      couples.managed.schema := by
    rw [Database.schema, hviews, Database.tables_withoutViews, couplesState_eval.2.2]
    rfl
  have hchecked := hquery.checked
  rw [checkClaimQuery_congr hschema] at hchecked
  have hfails : (checkClaimQuery couples.managed (Naming.claimView ⟨"tg_"⟩ recoupled.name)
      "SELECT principal_id, related_id FROM tg_claim_z").isOk = false := by
    set_option maxRecDepth 100000 in decide +kernel
  rw [hchecked] at hfails
  cases hfails

end Admin

end RowPolicy
