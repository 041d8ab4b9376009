import RowPolicy.Proofs.Admin.Lockstep
import RowPolicy.Proofs.Admin.Progress
import RowPolicy.Proofs.Admin.Registration

/-!
# Regeneration

All artifacts are removed, and then the stored definitions are installed one after the other: the
claims and then the rules. Each of them must be installed over the tables, the views that are not
generated and the views of the definitions before it. Nothing else can fail: the views can be
dropped, the definitions compile, and the registry takes their artifacts.
-/

namespace RowPolicy

open Sql Store

/-! ### Views that stood before -/

variable {db : Database} {sql : String}

lemma Database.Installed.creates {name : String} (h : db.Installed name sql)
    (hclosed : ∀ v ∈ db.views, v.query.params = 0)
    (hunreserved : ∀ v ∈ db.views, Database.isReserved v.name = false) : db.Creates name sql := by
  obtain ⟨q, rest, hparse, hview⟩ := h.exists_view
  have hmem : View.mk name sql q ∈ db.views := List.mem_of_find?_eq_some hview
  have hreserved := hunreserved (View.mk name sql q) hmem
  exact ⟨⟨parse_dropView_of_selectAll h.readable, h.readable, hreserved⟩, h.noTable,
    h.shallow, q, rest, hparse, hclosed _ hmem⟩

lemma Database.view?_withoutViews {names : List String} {name : String} (h : name ∈ names) :
    (db.withoutViews names).view? name = none := by
  rw [view?, views_withoutViews]
  refine List.find?_eq_none.mpr fun v hv => ?_
  exact Bool.eq_false_iff.mp (of_decide_eq_true (List.mem_filter.mp hv).2 name h)

/-! ### Definitions one after the other -/

lemma RuleRecord.reread_eq (r : RuleRecord) (h : r.body.reread = r.body) : r.reread = r := by
  unfold reread
  rw [h]

namespace Definition

/-- What compiling and rendering a definition as it is stored yields. -/
def Compiles (n : Naming) (catalog : Catalog) : Definition → List Rendered → Prop
  | .claim k, xs => catalog.compileClaim k.body = .ok () ∧ xs = [n.renderClaim k.body]
  | .rule r, xs => ∃ plan, catalog.compileRule r.body = .ok plan ∧ xs = n.renderRule plan

/-- The query of a claim, if it has one, is a single query that can be read. -/
def Passes (n : Naming) (db : Database) : Definition → Prop
  | .claim k => ∀ sql, k.body.source = .query sql →
      Admin.checkClaimQuery db (n.claimView k.body.name) sql = .ok ()
  | .rule _ => True

/-- A definition can be installed in a database that has no artifacts of it. -/
def CanFollow (n : Naming) (db : Database) (y : Definition) (xs : List Rendered) : Prop :=
  y.Passes n db ∧
    ∀ first x rest, xs = first ++ x :: rest → (db.withArtifacts first).CanInstall x

variable {n : Naming} {catalog : Catalog} {y : Definition} {xs ys : List Rendered}

lemma Compiles.renders (h : y.Compiles n catalog xs) : y.Renders n catalog xs := by
  cases y with
  | claim k => exact h
  | rule r =>
    obtain ⟨plan, hplan, hxs⟩ := h
    exact ⟨r.body, plan, .inl rfl, hplan, hxs⟩

/-- A rule that is read back as it was given was compiled as it is stored. -/
lemma Renders.compiles (h : y.Renders n catalog xs)
    (hgiven : ∀ r, y = .rule r → r.body.reread = r.body) : y.Compiles n catalog xs := by
  cases y with
  | claim k => exact h
  | rule r =>
    obtain ⟨d, plan, hd, hplan, hxs⟩ := h
    rw [hgiven r rfl, or_self] at hd
    exact ⟨plan, hd ▸ hplan, hxs⟩

lemma Compiles.unique (h : y.Compiles n catalog xs) (h' : y.Compiles n catalog ys) : xs = ys := by
  cases y with
  | claim k => exact h.2.trans h'.2.symm
  | rule r =>
    obtain ⟨plan, hplan, rfl⟩ := h
    obtain ⟨plan', hplan', rfl⟩ := h'
    rw [Except.ok.inj (hplan.symm.trans hplan')]

end Definition

namespace Admin

variable {s : Setting} {w w' : Work} {c : Contents} {catalog : Catalog} {sim : Database}
  {y : Definition} {ys done : List Definition} {f : Definition → List Rendered} {db' : Database}
  {a : ArtifactRecord}

lemma passes_congr {n : Naming} (h : db'.schema = db.schema) :
    y.Passes n db' ↔ y.Passes n db := by
  cases y with
  | claim k =>
    refine forall₂_congr fun sql _ => ?_
    rw [checkClaimQuery_congr h]
  | rule r => exact Iff.rfl

/-- A stored definition is compiled and installed. -/
def installDefinition (s : Setting) (w : Work) : Definition → Result (Work × Summary)
  | .claim k => installClaim s w k
  | .rule r => installRule s w r

lemma installDefinition_eq_ok {xs : List Rendered} {summary : Summary}
    (hy : y.Compiles s.naming w.catalog xs)
    (h : installDefinition s w y = .ok (w', summary)) :
    ∃ removed, Admin.replace w.db y.id (xs.map (ArtifactRecord.ofRendered y.id s.now)) =
      .ok (w'.db, removed) ∧ w' = { w with db := w'.db } := by
  cases y with
  | claim k =>
    obtain ⟨-, rfl⟩ := hy
    obtain ⟨removed, -, hreplace, hw⟩ := installClaim_eq_ok h
    exact ⟨removed, hreplace, hw⟩
  | rule r =>
    obtain ⟨plan, hplan, rfl⟩ := hy
    obtain ⟨plan', removed, hplan', hreplace, hw⟩ := installRule_eq_ok h
    cases hplan.symm.trans hplan'
    exact ⟨removed, hreplace, hw⟩

/-- A definition that compiles is installed exactly if its query passes the check and its artifacts
can be put in the place of what it had. -/
lemma installDefinition_isOk {xs : List Rendered} (hy : y.Compiles s.naming w.catalog xs) :
    (installDefinition s w y).isOk = true ↔ y.Passes s.naming w.db ∧
      (Admin.replace w.db y.id (xs.map (ArtifactRecord.ofRendered y.id s.now))).isOk = true := by
  cases y with
  | claim k =>
    obtain ⟨hcompile, rfl⟩ := hy
    change (installClaim s w k).isOk = true ↔ _
    unfold installClaim
    rw [ofChecked_eq_ok.mpr hcompile, ok_bind]
    dsimp only
    cases hsource : k.body.source with
    | table table =>
      have hpasses : Definition.Passes s.naming w.db (.claim k) := fun sql hsql => by
        cases hsource.symm.trans hsql
      exact (isOk_map fun _ _ => rfl).trans (and_iff_right hpasses).symm
    | query sql =>
      have hpasses : Definition.Passes s.naming w.db (.claim k) ↔
          (checkClaimQuery w.db (s.naming.claimView k.body.name) sql).isOk = true := by
        rw [isOk_unit]
        refine ⟨fun h => h sql hsource, fun h sql' hsql' => ?_⟩
        cases hsource.symm.trans hsql'
        exact h
      rw [hpasses]
      exact isOk_bind fun _ _ => isOk_map fun _ _ => rfl
  | rule r =>
    obtain ⟨plan, hplan, rfl⟩ := hy
    change (installRule s w r).isOk = true ↔ _
    unfold installRule
    rw [ofChecked_eq_ok.mpr hplan, ok_bind]
    exact (isOk_map fun _ _ => rfl).trans (and_iff_right trivial).symm

/-- Artifacts of some definitions were generated again: the definitions are stored as before, there
are no other artifacts, and the views are those of a database that only the registry tells from the
present one. -/
structure Regenerated (c : Contents) (catalog : Catalog) (sim : Database) (done : List Definition)
    (w : Work) : Prop where
  catalog : w.catalog = catalog
  stored : ∃ c', Contains w.db c' ∧ c'.rules = c.rules ∧ c'.claims = c.claims ∧
    ∀ a ∈ c'.artifacts, ∃ y ∈ done, a.owner = y.id
  writes : Writes artifactTable.name sim w.db

lemma mem_of_mem_saveAll {as : List ArtifactRecord}
    (h : a ∈ (as.foldl Contents.saveArtifact c).artifacts) : a ∈ as ∨ a ∈ c.artifacts := by
  induction as generalizing c with
  | nil => exact .inr h
  | cons b as ih =>
    obtain h | h := ih h
    · exact .inl (List.mem_cons_of_mem b h)
    · obtain rfl | h := List.mem_cons.mp h
      · exact .inl List.mem_cons_self
      · exact .inr (List.mem_filter.mp h).1

lemma Regenerated.step {xs : List Rendered} (h : Regenerated c catalog sim done w)
    (hnow : s.now.IsRegular) (hy : y.Compiles s.naming catalog xs)
    (hid : ∀ z ∈ done, z.id ≠ y.id) :
    ((installDefinition s w y).isOk = true ↔ y.CanFollow s.naming sim xs) ∧
      ∀ w' summary, installDefinition s w y = .ok (w', summary) →
        Regenerated c catalog (sim.withArtifacts xs) (done ++ [y]) w' := by
  have hy' : y.Compiles s.naming w.catalog xs := h.catalog.symm ▸ hy
  obtain ⟨c', hstored, hrules, hclaims, howners⟩ := h.stored
  obtain ⟨hok, hwritten⟩ := replace_iff hstored
    (fun a ha heq => by
      obtain ⟨z, hz, hza⟩ := howners a ha
      exact hid z hz (hza.symm.trans heq))
    hnow (fun x hx => (mem_renders hy.renders hx).2.2.created) h.writes
  refine ⟨(installDefinition_isOk hy').trans (and_congr (passes_congr h.writes.schema) hok),
    fun w' summary hinstall => ?_⟩
  obtain ⟨removed, hreplace, hw⟩ := installDefinition_eq_ok hy' hinstall
  obtain ⟨hstored', hwrites'⟩ := hwritten _ _ hreplace
  obtain ⟨hrules', hclaims'⟩ :=
    saveAll_definitions (xs.map (ArtifactRecord.ofRendered y.id s.now)) c'
  refine ⟨by rw [hw, h.catalog], ⟨_, hstored', hrules'.trans hrules, hclaims'.trans hclaims,
    fun a ha => ?_⟩, hwrites'⟩
  obtain ha | ha := mem_of_mem_saveAll ha
  · obtain ⟨x, -, rfl⟩ := List.mem_map.mp ha
    exact ⟨y, by simp, rfl⟩
  · obtain ⟨z, hz, hza⟩ := howners a ha
    exact ⟨z, List.mem_append_left _ hz, hza⟩

/-- Definitions are installed exactly if each can follow those before it. -/
lemma Regenerated.summarize (h : Regenerated c catalog sim done w) (hnow : s.now.IsRegular)
    (hcompiles : ∀ y ∈ ys, y.Compiles s.naming catalog (f y))
    (hids : ((done ++ ys).map Definition.id).Nodup) :
    ((Admin.summarize (installDefinition s) w ys).isOk = true ↔
      ∀ before y after, ys = before ++ y :: after →
        y.CanFollow s.naming (sim.withArtifacts (before.flatMap f)) (f y)) ∧
    ∀ out, Admin.summarize (installDefinition s) w ys = .ok out →
      Regenerated c catalog (sim.withArtifacts (ys.flatMap f)) (done ++ ys) out.1 := by
  refine foldlM_iff
    (P := fun before (out : Work × List Summary) =>
      Regenerated c catalog (sim.withArtifacts (before.flatMap f)) (done ++ before) out.1)
    (A := fun before y => y.CanFollow s.naming (sim.withArtifacts (before.flatMap f)) (f y))
    (by rwa [List.append_nil]) ?_
  rintro before y after ⟨w₁, summaries⟩ rfl h₁
  have hnew : ∀ z ∈ done ++ before, z.id ≠ y.id := by
    rw [← List.append_assoc, List.map_append, List.map_cons, List.nodup_append] at hids
    exact fun z hz => hids.2.2 z.id (List.mem_map_of_mem hz) y.id List.mem_cons_self
  obtain ⟨hok, hkept⟩ := h₁.step hnow (hcompiles y (by simp)) hnew
  refine ⟨(isOk_map fun _ _ => rfl).trans hok, fun out hround => ?_⟩
  obtain ⟨⟨w₂, summary⟩, hinstall, hround⟩ := bind_eq_ok.mp hround
  cases hround
  have h₂ := hkept w₂ summary hinstall
  rwa [← Database.withArtifacts_append, ← List.flatMap_singleton f y, ← List.flatMap_append,
    List.append_assoc] at h₂

/-! ### Artifacts that are installed anew -/

section

variable {n : Naming} {ids : Nat → Uuid} {base user : Database} {clash : String → Prop}
  {k : ClaimRecord} {past : List State} {x : State} {existing : List ArtifactRecord}

/-- Every view of the registry stands if the names of claims do not clash. -/
lemma Sound.installed_view (h : Sound n ids base clash (fun _ => True) w c)
    (hclash : ∀ k ∈ c.claims, ¬ clash k.body.name ∧ ¬ c.HasTwin k.body.name)
    (ha : a ∈ c.artifacts) (hsql : a.body = .view sql) : w.db.Installed a.identifier sql := by
  refine (h.registered.views a ha sql hsql).resolve_right ?_
  rintro ⟨hkind, hnames⟩
  have howned := h.registered.owned a ha
  obtain ⟨y, hy, -, htarget, hoperation⟩ := howned.exists_definition
  have hfits : a.kind.Fits a.operation := howned.named.fits
  rw [hkind, hoperation] at hfits
  cases y with
  | claim k =>
    rw [htarget] at hnames
    exact hnames.elim (hclash k hy).1 (hclash k hy).2
  | rule r => cases hfits

lemma Sound.creates_view (h : Sound n ids base clash (fun _ => True) w c)
    (hclash : ∀ k ∈ c.claims, ¬ clash k.body.name ∧ ¬ c.HasTwin k.body.name)
    (hviews : ∀ v ∈ base.views, Database.isReserved v.name = false) (ha : a ∈ c.artifacts)
    (hsql : a.body = .view sql) : w.db.Creates a.identifier sql :=
  (h.installed_view hclash ha hsql).creates h.defined.closed fun v hv =>
    (h.defined.unreserved v hv).elim (hviews v) id

/-- Without their views, the artifacts of the stored definitions can be installed anew. -/
lemma Sound.areNew (h : Sound n ids base clash (fun _ => True) w c)
    (hclash : ∀ k ∈ c.claims, ¬ clash k.body.name ∧ ¬ c.HasTwin k.body.name)
    (hviews : ∀ v ∈ base.views, Database.isReserved v.name = false)
    (hexisting : existing.Perm c.artifacts) (hys : ∀ y ∈ ys, c.Defines y) (hnodup : ys.Nodup)
    (hf : ∀ y ∈ ys, y.Renders n w.catalog (f y) ∧ c.Serves y.id (f y)) :
    (w.db.withoutViews (existing.flatMap ArtifactRecord.viewNames)).AreNew (ys.flatMap f) := by
  have hserved : ∀ x ∈ ys.flatMap f, ∃ a ∈ c.artifacts, a.rendered = x := by
    intro x hx
    obtain ⟨y, hy, hx⟩ := List.mem_flatMap.mp hx
    obtain ⟨a, ha, -, hrendered⟩ := ((hf y hy).2 x).mpr hx
    exact ⟨a, ha, hrendered⟩
  refine ⟨fun x hx sql hsql => ?_, fun x hx sql hsql => ?_, List.pairwise_flatMap.mpr ⟨?_, ?_⟩⟩
  · obtain ⟨a, ha, rfl⟩ := hserved x hx
    have hcreates : w.db.Creates a.identifier sql := h.creates_view hclash hviews ha hsql
    refine ⟨hcreates.isName, ?_, hcreates.shallow, hcreates.exists_query⟩
    rw [Database.table?, Database.tables_withoutViews]
    exact hcreates.noTable
  · obtain ⟨a, ha, rfl⟩ := hserved x hx
    have hview : a.kind.isView = true := ((h.registered.owned a ha).named.created sql hsql).1
    exact Database.view?_withoutViews (List.mem_flatMap.mpr
      ⟨a, hexisting.mem_iff.mpr ha, mem_viewNames.mpr ⟨hview, rfl⟩⟩)
  · -- Only the first artifact of a definition may be a view.
    intro y hy
    have hrenders := (hf y hy).1
    refine (renders_pairwise hrenders).imp_of_mem fun {x x'} _ hx' hkinds sql sql' _ hsql' => ?_
    have hview := ((mem_renders hrenders hx').2.2.created sql' hsql').1
    rw [hkinds.2] at hview
    cases hview
  · refine hnodup.imp_of_mem fun {y z} hy hz hne x hx x' hx' sql sql' hsql hsql' => ?_
    obtain ⟨a, ha, howner, rfl⟩ := ((hf y hy).2 x).mpr hx
    obtain ⟨b, hb, howner', rfl⟩ := ((hf z hz).2 x').mpr hx'
    have hrendersa := mem_renders (hf y hy).1 hx
    have hrendersb := mem_renders (hf z hz).1 hx'
    refine Bool.eq_false_iff.mpr fun hname => ?_
    obtain ⟨hkind, htwin⟩ := h.defined.hasTwin_of_sameName (hys y hy) (hys z hz)
      (fun hid => hne (h.defined.ids_injective y z (hys y hy) (hys z hz) hid))
      hrendersa.2.2 ⟨hrendersa.1, hrendersa.2.1⟩ hrendersb.2.2 ⟨hrendersb.1, hrendersb.2.1⟩
      (hrendersa.2.2.created sql hsql).1 (hrendersb.2.2.created sql' hsql').1 hname
    have htarget : b.target = z.target := hrendersb.1
    have hfits : b.kind.Fits b.operation := hrendersb.2.2.fits
    have hoperation : b.operation = z.operation := hrendersb.2.1
    rw [hkind, hoperation] at hfits
    rw [htarget] at htwin
    cases z with
    | claim k => exact (hclash k (hys _ hz)).2 htwin
    | rule r => cases hfits

/-! ### Regeneration -/

lemma claims_congr (h : db'.table? claimTable.name = db.table? claimTable.name) :
    Store.claims db' = Store.claims db := by
  rw [Store.claims, Store.claims, Store.table, Store.table, h]

lemma rules_congr (h : db'.table? ruleTable.name = db.table? ruleTable.name) :
    Store.rules db' = Store.rules db := by
  rw [Store.rules, Store.rules, Store.table, Store.table, h]

lemma Regenerated.table?_eq {t : Table} (h : Regenerated c catalog sim done w)
    (hc : Contains db c) (hsim : sim.tables = db.tables) (ht : t = ruleTable ∨ t = claimTable) :
    w.db.table? t.name = db.table? t.name := by
  have hfound : ∃ u, db.table? t.name = some u ∧ u.schema = t := by
    obtain rfl | rfl := ht
    · obtain ⟨u, hu, hschema, -⟩ := hc.rules.holds.exists_table
      exact ⟨u, hu, hschema⟩
    · obtain ⟨u, hu, hschema, -⟩ := hc.claims.holds.exists_table
      exact ⟨u, hu, hschema⟩
  obtain ⟨u, hu, hschema⟩ := hfound
  have hname : u.name ≠ artifactTable.name := by
    have hsame : u.schema.name = t.name := congrArg Table.name hschema
    change u.schema.name ≠ _
    rw [hsame]
    obtain rfl | rfl := ht <;> decide
  rw [hu]
  refine h.writes.others _ _ ?_ hname
  rw [Database.table?, hsim]
  exact hu

lemma summarize_claims (s : Setting) (w : Work) (ks : List ClaimRecord) :
    Admin.summarize (installClaim s) w ks =
      Admin.summarize (installDefinition s) w (ks.map .claim) := by
  rw [Admin.summarize, Admin.summarize, List.foldlM_map]
  rfl

lemma summarize_rules (s : Setting) (w : Work) (rs : List RuleRecord) :
    Admin.summarize (installRule s) w rs =
      Admin.summarize (installDefinition s) w (rs.map .rule) := by
  rw [Admin.summarize, Admin.summarize, List.foldlM_map]
  rfl

/-- All artifacts are generated again exactly if each definition can follow those before it, the
claims in the order of their names and then the rules. -/
lemma Sound.rebuild_iff {ks : List ClaimRecord} {rs : List RuleRecord}
    (h : Sound s.naming s.ids base clash (fun _ => True) w c)
    (hclash : ∀ k ∈ c.claims, ¬ clash k.body.name ∧ ¬ c.HasTwin k.body.name)
    (hviews : ∀ v ∈ base.views, Database.isReserved v.name = false) (hnow : s.now.IsRegular)
    (hexisting : Store.artifacts w.db = .ok existing) (hks : Store.claims w.db = .ok ks)
    (hrs : Store.rules w.db = .ok rs) (hsim : w.db.withoutViews
      (existing.flatMap ArtifactRecord.viewNames) = sim)
    (hcompiles : ∀ y ∈ ks.map Definition.claim ++ (installOrder rs).map Definition.rule,
      y.Compiles s.naming w.catalog (f y))
    (hids : ((ks.map Definition.claim ++
      (installOrder rs).map Definition.rule).map Definition.id).Nodup) :
    ((Admin.rebuild s w).isOk = true ↔
      (∀ before y after, ks.map Definition.claim = before ++ y :: after →
        y.CanFollow s.naming (sim.withArtifacts (before.flatMap f)) (f y)) ∧
      ∀ before y after, (installOrder rs).map Definition.rule = before ++ y :: after →
        y.CanFollow s.naming
          ((sim.withArtifacts ((ks.map Definition.claim).flatMap f)).withArtifacts
            (before.flatMap f)) (f y)) ∧
    ∀ w' summaries, Admin.rebuild s w = .ok (w', summaries) → ∃ sim' done,
      sim'.tables = w.db.tables ∧ Regenerated c w.catalog sim' done w' := by
  have hc := h.defined.stored
  obtain ⟨existing', hexisting', hperm⟩ := hc.artifacts_isOk
  cases hexisting.symm.trans hexisting'
  -- A registered view is in the database under its own name, so it can be dropped.
  have hdrops : ∀ a ∈ existing, a.IsDroppable w.db := by
    intro a ha hview
    have ha := hperm.mem_iff.mp ha
    obtain ⟨sql, hsql⟩ := (h.registered.owned a ha).named.isView hview
    have hcreates := h.creates_view hclash hviews ha hsql
    exact ⟨hcreates.isName.drops, hcreates.noTable⟩
  obtain ⟨db₁, hremoved, hwrites⟩ := removeAll_isOk hc hdrops
  have hstored := (h.removeAll hexisting hremoved).defined.stored
  rw [hsim] at hwrites
  have htables : sim.tables = w.db.tables := by
    rw [← hsim, Database.tables_withoutViews]
  -- Without artifacts and views the definitions are still those of the store.
  have hstart : Regenerated c w.catalog sim [] { w with db := db₁ } :=
    ⟨rfl, ⟨_, hstored, rfl, rfl, by simp⟩, hwrites⟩
  have hks₁ : Store.claims db₁ = .ok ks := by
    rw [claims_congr (hstart.table?_eq hc htables (.inr rfl)), hks]
  have hcompiles' := List.forall_mem_append.mp hcompiles
  -- The claims come first, each after those before it.
  obtain ⟨hclaims, hkept⟩ := hstart.summarize hnow hcompiles'.1 (by
    rw [List.map_append] at hids
    simpa using (List.nodup_append.mp hids).1)
  -- Installing claims does not change the stored rules, which come after them.
  have hrules : ∀ out,
      Admin.summarize (installDefinition s) { w with db := db₁ } (ks.map Definition.claim) =
      .ok out → Store.rules out.1.db = .ok rs ∧ _ := fun out hout => by
    have hmiddle := hkept out hout
    refine ⟨?_, hmiddle.summarize hnow hcompiles'.2 (by simpa using hids)⟩
    rw [rules_congr (hmiddle.table?_eq hc ?_ (.inl rfl)), hrs]
    rw [Database.tables_withArtifacts, htables]
  unfold Admin.rebuild
  rw [ofStore_eq_ok.mpr hexisting, ok_bind, hremoved, ok_bind, ofStore_eq_ok.mpr hks₁, ok_bind,
    summarize_claims]
  refine ⟨(isOk_bind fun out hout => ?_).trans (and_congr hclaims Iff.rfl),
    fun w' summaries hall => ?_⟩
  · obtain ⟨hread, hsecond, -⟩ := hrules out hout
    dsimp only
    rw [ofStore_eq_ok.mpr hread, ok_bind, summarize_rules]
    exact (isOk_map fun _ _ => rfl).trans hsecond
  · obtain ⟨out, hout, hall⟩ := bind_eq_ok.mp hall
    obtain ⟨hread, -, hend⟩ := hrules out hout
    dsimp only at hall
    rw [ofStore_eq_ok.mpr hread, ok_bind, summarize_rules] at hall
    obtain ⟨out', hout', hall⟩ := bind_eq_ok.mp hall
    cases hall
    refine ⟨_, _, ?_, hend out' hout'⟩
    rw [Database.tables_withArtifacts, Database.tables_withArtifacts, htables]

/-- Registries over the same definitions and the same catalog have the same entries if the rules are
read back as they were given. -/
lemma Sound.entries_perm {c' : Contents} (h : Sound n ids base clash (fun _ => True) w c)
    (h' : Sound n ids base clash (fun _ => True) w' c') (hcatalog : w'.catalog = w.catalog)
    (hrules : c'.rules = c.rules) (hclaims : c'.claims = c.claims)
    (hgiven : ∀ r ∈ c.rules, r.body.reread = r.body) :
    (c'.artifacts.map ArtifactRecord.entry).Perm (c.artifacts.map ArtifactRecord.entry) := by
  obtain ⟨g, hg, hentries⟩ := h.exists_entries
  obtain ⟨g', hg', hentries'⟩ := h'.exists_entries
  have hsame : c'.definitions = c.definitions := by
    rw [Contents.definitions, Contents.definitions, hrules, hclaims]
  refine hentries'.trans (.trans (.of_eq ?_) hentries.symm)
  rw [hsame]
  refine List.flatMap_congr fun y hy => ?_
  have hy := Contents.mem_definitions.mp hy
  have hread : ∀ r, y = .rule r → r.body.reread = r.body := by
    rintro r rfl
    exact hgiven r hy
  have hrenders := hg' y ((Contents.defines_congr hrules hclaims y).mpr hy)
  rw [hcatalog] at hrenders
  rw [(hrenders.compiles hread).unique ((hg y hy).compiles hread)]

end

end Admin

end RowPolicy
