import RowPolicy.Proofs.Admin.Changes

/-!
# Calls of administration

What each administrative step does to a sound registry: the definitions that it stores or drops,
and the artifacts that it brings up to date.
-/

namespace RowPolicy

open Store

namespace Admin

variable {n : Naming} {ids : Nat → Uuid} {base : Database} {clash : String → Prop}
  {fresh fresh' : Uuid → Prop} {w w' : Work} {c c₁ : Contents} {x : Definition}

/-! ### Installation of definitions -/

section

variable {s : Setting} {summary : Summary} {α : Type} {existing : Option (Stamped α)} {body : α}
  {record : Stamped α} {r : Rule} {k : RuleKey} {before after : Work × Summary} {removed : Nat}
  {table name : String}

lemma installRule_eq_ok {r : RuleRecord} (h : installRule s w r = .ok (w', summary)) :
    ∃ plan removed, w.catalog.compileRule r.body = .ok plan ∧
      Admin.replace w.db r.id
        ((s.naming.renderRule plan).map (ArtifactRecord.ofRendered r.id s.now)) =
          .ok (w'.db, removed) ∧ w' = { w with db := w'.db } := by
  unfold installRule at h
  obtain ⟨plan, hplan, h⟩ := bind_eq_ok.mp h
  obtain ⟨⟨db, removed⟩, hreplace, h⟩ := bind_eq_ok.mp h
  cases h
  exact ⟨plan, removed, ofChecked_eq_ok.mp hplan, hreplace, rfl⟩

lemma installClaim_eq_ok {k : ClaimRecord} (h : installClaim s w k = .ok (w', summary)) :
    ∃ removed, w.catalog.compileClaim k.body = .ok () ∧
      Admin.replace w.db k.id
        ([s.naming.renderClaim k.body].map (ArtifactRecord.ofRendered k.id s.now)) =
          .ok (w'.db, removed) ∧ w' = { w with db := w'.db } := by
  unfold installClaim at h
  obtain ⟨_, hcompile, h⟩ := bind_eq_ok.mp h
  dsimp only at h
  have hrest : ∃ removed, Admin.replace w.db k.id
      ([s.naming.renderClaim k.body].map (ArtifactRecord.ofRendered k.id s.now)) =
        .ok (w'.db, removed) ∧ w' = { w with db := w'.db } := by
    split at h
    next =>
      obtain ⟨_, -, h⟩ := bind_eq_ok.mp h
      obtain ⟨⟨db, removed⟩, hreplace, h⟩ := bind_eq_ok.mp h
      cases h
      exact ⟨removed, hreplace, rfl⟩
    next =>
      obtain ⟨⟨db, removed⟩, hreplace, h⟩ := bind_eq_ok.mp h
      cases h
      exact ⟨removed, hreplace, rfl⟩
  obtain ⟨removed, hreplace, hw'⟩ := hrest
  exact ⟨removed, ofChecked_eq_ok.mp hcompile, hreplace, hw'⟩

/-- A record keeps the identifier of the definition that it takes the place of, or is given the
next one. -/
lemma recordOf_eq (h : recordOf s w existing body = (w', record)) :
    w'.db = w.db ∧ w'.catalog = w.catalog ∧ record.body = body ∧ record.updatedAt = s.now ∧
      ((∃ old, existing = some old ∧ record.id = old.id ∧ record.createdAt = old.createdAt ∧
          w'.issued = w.issued) ∨
        existing = none ∧ record.id = s.ids w.issued ∧ record.createdAt = s.now ∧
          w'.issued = w.issued + 1) := by
  cases existing with
  | none =>
    cases h
    exact ⟨rfl, rfl, rfl, rfl, .inr ⟨rfl, rfl, rfl, rfl⟩⟩
  | some old =>
    cases h
    exact ⟨rfl, rfl, rfl, rfl, .inl ⟨old, rfl, rfl, rfl, rfl⟩⟩

lemma recordOf_isRegular (h : recordOf s w existing body = (w', record)) (hnow : s.now.IsRegular)
    (hold : ∀ old, existing = some old → old.createdAt.IsRegular) : record.IsRegular := by
  obtain ⟨-, -, -, hupdated, ⟨old, hexisting, -, hcreated, -⟩ | ⟨-, -, hcreated, -⟩⟩ :=
    recordOf_eq h
  · exact ⟨hcreated ▸ hold old hexisting, hupdated ▸ hnow⟩
  · exact ⟨hcreated ▸ hnow, hupdated ▸ hnow⟩

/-- A definition takes the place of the one with its subject, or is a new one. -/
lemma Defined.admits_record {w₁ : Work} (h : Defined s.naming s.ids base w c)
    (hrecord : recordOf s w existing body = (w₁, record)) (hx : x.id = record.id)
    (hids : Set.InjOn s.ids (Set.Iio w₁.issued))
    (hexisting : (existing = none ∧ ∀ y, c.Defines y → ¬ y.SameSubject x) ∨
      ∃ old y, existing = some old ∧ c.Defines y ∧ y.id = old.id ∧ y.SameSubject x) :
    c.Admits x ∧ w.issued ≤ w₁.issued ∧ ∃ i < w₁.issued, s.ids i = x.id := by
  obtain ⟨-, -, -, -, ⟨old, hold, hid, -, hissued⟩ | ⟨hnone, hid, -, hissued⟩⟩ :=
    recordOf_eq hrecord
  · obtain ⟨hnone, -⟩ | ⟨old', y, hold', hy, hyid, hsubject⟩ := hexisting
    · cases hnone.symm.trans hold
    · cases hold.symm.trans hold'
      have hyx : y.id = x.id := hyid.trans (hid.symm.trans hx.symm)
      obtain ⟨i, hi, hiy⟩ := h.issued y hy
      exact ⟨h.admits_of_stored hy hyx hsubject, hissued.ge, i, hissued ▸ hi, hiy.trans hyx⟩
  · obtain ⟨-, hnew⟩ | ⟨old', y, hold', -⟩ := hexisting
    · rw [hissued] at hids
      exact ⟨h.admits_of_issued hids (hx.trans hid) hnew, by omega, w.issued, by omega,
        (hx.trans hid).symm⟩
    · cases hnone.symm.trans hold'

lemma defines_save_of_admits (hadmits : c.Admits x) (hrules : c₁.rules = c.rules)
    (hclaims : c₁.claims = c.claims) (y : Definition) :
    (c₁.save x).Defines y ↔ y = x ∨ c.Defines y ∧ y.id ≠ x.id := by
  rw [Contents.defines_save, Contents.defines_congr hrules hclaims]
  exact or_congr_right (and_congr_right fun hy => not_congr (hadmits y hy).symm)

lemma defines_drop_of_admits (hadmits : c.Admits x) (hrules : c₁.rules = c.rules)
    (hclaims : c₁.claims = c.claims) (y : Definition) :
    (c₁.drop x).Defines y ↔ c.Defines y ∧ y.id ≠ x.id := by
  rw [Contents.defines_drop, Contents.defines_congr hrules hclaims]
  exact and_congr_right fun hy => not_congr (hadmits y hy).symm

/-! ### Rules -/

lemma defineRule_eq_ok (h : Admin.defineRule s w r = .ok (w', summary)) :
    ∃ existing w₁ record plan removed db₁, Store.rule w.db r.key = .ok existing ∧
      recordOf s w existing r = (w₁, record) ∧ w.catalog.compileRule r = .ok plan ∧
      Admin.replace w.db record.id
        ((s.naming.renderRule plan).map (ArtifactRecord.ofRendered record.id s.now)) =
          .ok (db₁, removed) ∧
      Store.saveRule db₁ record = .ok w'.db ∧ w'.catalog = w.catalog.insertRule r ∧
      w'.issued = w₁.issued := by
  unfold Admin.defineRule at h
  obtain ⟨_, -, h⟩ := bind_eq_ok.mp h
  obtain ⟨_, -, h⟩ := bind_eq_ok.mp h
  obtain ⟨existing, hexisting, h⟩ := bind_eq_ok.mp h
  obtain ⟨w₁, record, hrecord⟩ : ∃ w₁ record, recordOf s w existing r = (w₁, record) := ⟨_, _, rfl⟩
  rw [hrecord] at h
  obtain ⟨⟨w₂, summary⟩, hinstall, h⟩ := bind_eq_ok.mp h
  obtain ⟨db, hsave, h⟩ := bind_eq_ok.mp h
  cases h
  obtain ⟨hdb, hcatalog, hbody, -⟩ := recordOf_eq hrecord
  obtain ⟨plan, removed, hplan, hreplace, hw₂⟩ := installRule_eq_ok hinstall
  rw [hcatalog, hbody] at hplan
  rw [hdb] at hreplace
  refine ⟨existing, w₁, record, plan, removed, w₂.db, ofStore_eq_ok.mp hexisting, hrecord, hplan,
    hreplace, ofStore_eq_ok.mp hsave, ?_, ?_⟩
  · rw [hw₂, hcatalog]
  · rw [hw₂]

lemma recordOf_issued (h : recordOf s w existing body = (w', record)) : w.issued ≤ w'.issued := by
  obtain ⟨-, -, -, -, ⟨_, -, -, -, hissued⟩ | ⟨-, -, -, hissued⟩⟩ := recordOf_eq h
  · exact hissued.ge
  · omega

lemma defineRule_issued (h : Admin.defineRule s w r = .ok (w', summary)) :
    w.issued ≤ w'.issued := by
  obtain ⟨existing, w₁, record, plan, removed, db₁, -, hrecord, -, -, -, -, hissued⟩ :=
    defineRule_eq_ok h
  exact hissued ▸ recordOf_issued hrecord

lemma Defined.existing_rule {r : RuleRecord} {existing : Option RuleRecord}
    (h : Defined n ids base w c) (hexisting : Store.rule w.db r.body.key = .ok existing) :
    (existing = none ∧ ∀ y, c.Defines y → ¬ y.SameSubject (.rule r)) ∨
      ∃ old y, existing = some old ∧ c.Defines y ∧ y.id = old.id ∧ y.SameSubject (.rule r) := by
  obtain ⟨hnone, hnew⟩ | ⟨b, hb, hkey, -, hsome⟩ := h.stored.rule_eq_ok.mp hexisting
  · refine .inl ⟨hnone, fun y hy hsubject => ?_⟩
    cases y with
    | claim k => cases hsubject.2
    | rule b => exact hnew b hy (Contents.key_eq_iff.mpr hsubject)
  · exact .inr ⟨b.reread, .rule b, hsome, hb, rfl, Contents.key_eq_iff.mp hkey⟩

lemma Sound.defineRule (h : Sound s.naming s.ids base clash fresh w c) (hnow : s.now.IsRegular)
    (hids : Set.InjOn s.ids (Set.Iio w'.issued))
    (hdefine : Admin.defineRule s w r = .ok (w', summary)) :
    ∃ (record : RuleRecord) (c₁ : Contents), record.body = r ∧ c₁.rules = c.rules ∧
      c₁.claims = c.claims ∧ Sound s.naming s.ids base clash fresh w' (c₁.saveRule record) ∧
      ∃ plan, w'.catalog.compileRule r = .ok plan ∧
        c₁.Serves record.id (s.naming.renderRule plan) := by
  obtain ⟨existing, w₁, record, plan, removed, db₁, hexisting, hrecord, hplan, hreplace, hsave,
    hcatalog, hissued⟩ := defineRule_eq_ok hdefine
  obtain ⟨-, -, rfl, -⟩ := recordOf_eq hrecord
  obtain ⟨hadmits, hle, hid⟩ := h.defined.admits_record (x := .rule record) hrecord rfl
    (hissued ▸ hids) (h.defined.existing_rule hexisting)
  have hrenders : (Definition.rule record).Renders s.naming w.catalog (s.naming.renderRule plan) :=
    ⟨record.body, plan, .inl rfl, hplan, rfl⟩
  obtain ⟨c₁, hreplaces⟩ := h.replace hnow hadmits hrenders hreplace
  -- A record that is replaced keeps the time of its creation.
  have hregular : record.IsRegular := recordOf_isRegular hrecord hnow fun old hold => by
    obtain ⟨hnone, -⟩ | ⟨b, hb, -, -, hsome⟩ := h.defined.stored.rule_eq_ok.mp hexisting
    · cases hnone.symm.trans hold
    · cases hold.symm.trans hsome
      exact (h.defined.stored.rules.all b hb).1
  obtain ⟨hstored, hspares⟩ := hreplaces.stored.saveRule hregular hsave
  have hdefines := defines_save_of_admits hadmits hreplaces.rules hreplaces.claims
  have htables : w'.catalog.tables = w.catalog.tables := by rw [hcatalog]; rfl
  have hclaims : ∀ name, w'.catalog.claim? name = w.catalog.claim? name := by
    rw [hcatalog]
    exact fun _ => rfl
  have hserves := Contents.serves_new hreplaces.artifacts (List.forall_mem_map.mpr fun _ _ => rfl)
  rw [List.map_map] at hserves
  refine ⟨record, c₁, rfl, hreplaces.rules, hreplaces.claims, ?_, plan,
    Catalog.compileRule_congr hplan htables fun name _ => hclaims name,
    (List.map_id (s.naming.renderRule plan)) ▸ hserves⟩
  refine h.settle hadmits hreplaces hstored hspares rfl hdefines (hissued ▸ hle) (hissued ▸ hid)
    ?_ (hrenders.congr htables fun _ _ name _ => hclaims name) fun y hy hyx hfresh =>
      ⟨hfresh, fun ys hys => hys.congr htables fun _ _ name _ => hclaims name⟩
  rw [hcatalog]
  refine h.defined.catalog.insertRule (r := record) rfl (fun _ => rfl) hreplaces.claims
    fun b hb => ?_
  rw [Contents.saveRule, List.mem_cons, List.mem_filter, hreplaces.rules] at hb
  exact hb.imp_right fun hb => ⟨hb.1, of_decide_eq_true hb.2⟩

/-- Compiling a rule again installs it as it is read back, if there is one. -/
lemma recompile_eq_ok (h : Admin.recompile s before k = .ok after) :
    (Store.rule before.1.db k = .ok none ∧ after = before) ∨
      ∃ r again, Store.rule before.1.db k = .ok (some r) ∧
        installRule s before.1 r = .ok (after.1, again) := by
  unfold Admin.recompile at h
  obtain ⟨stored, hstored, h⟩ := bind_eq_ok.mp h
  rw [ofStore_eq_ok] at hstored
  cases stored with
  | none =>
    cases h
    exact .inl ⟨hstored, rfl⟩
  | some r =>
    obtain ⟨⟨w', again⟩, hinstall, h⟩ := bind_eq_ok.mp h
    cases h
    exact .inr ⟨r, again, hstored, hinstall⟩

lemma recompile_issued (h : Admin.recompile s before k = .ok after) :
    after.1.issued = before.1.issued := by
  obtain ⟨-, rfl⟩ | ⟨r, again, -, hinstall⟩ := recompile_eq_ok h
  · rfl
  · obtain ⟨plan, removed, -, -, hw'⟩ := installRule_eq_ok hinstall
    rw [hw']

lemma recompileAll_issued {ks : List RuleKey}
    (h : ks.foldlM (Admin.recompile s) before = .ok after) :
    after.1.issued = before.1.issued := by
  refine foldlM_induction (fun _ (middle : Work × Summary) => middle.1.issued = before.1.issued)
    rfl (fun _ _ _ _ _ hdone hround => ?_) h
  exact (recompile_issued hround).trans hdone

lemma Sound.recompile (h : Sound s.naming s.ids base clash fresh before.1 c)
    (hnow : s.now.IsRegular) (hrecompile : Admin.recompile s before k = .ok after) :
    ∃ c', c'.rules = c.rules ∧ c'.claims = c.claims ∧
      Sound s.naming s.ids base clash
        (fun id => fresh id ∨ ∃ r ∈ c.rules, r.id = id ∧ r.body.key = k) after.1 c' := by
  obtain ⟨hstored, rfl⟩ | ⟨r, again, hstored, hinstall⟩ := recompile_eq_ok hrecompile
  · obtain ⟨-, hnone⟩ | ⟨b, -, -, -, hsome⟩ := h.defined.stored.rule_eq_ok.mp hstored
    · refine ⟨c, rfl, rfl, h.mono fun x _ hfresh => hfresh.resolve_right ?_⟩
      rintro ⟨r, hr, -, hkey⟩
      exact hnone r hr hkey
    · cases hsome
  · obtain ⟨hnone, -⟩ | ⟨b, hb, hkey, -, hsome⟩ := h.defined.stored.rule_eq_ok.mp hstored
    · cases hnone
    · cases hsome
      obtain ⟨plan, removed, hplan, hreplace, hw'⟩ := installRule_eq_ok hinstall
      have hrenders : (Definition.rule b).Renders s.naming before.1.catalog
          (s.naming.renderRule plan) := ⟨b.body.reread, plan, .inr rfl, hplan, rfl⟩
      obtain ⟨c', hrules, hclaims, hsound⟩ :=
        h.reinstall (x := .rule b) hnow hb hrenders hreplace hw'
      refine ⟨c', hrules, hclaims, hsound.mono fun x _ => Or.imp_right ?_⟩
      rintro ⟨r, hr, hid, hkey'⟩
      rw [← hid, h.defined.stored.rules.eq_of_key hr hb (hkey'.trans hkey.symm)]
      rfl

lemma Sound.recompileAll {ks : List RuleKey}
    (h : Sound s.naming s.ids base clash fresh before.1 c) (hnow : s.now.IsRegular)
    (hrecompile : ks.foldlM (Admin.recompile s) before = .ok after) :
    ∃ c', c'.rules = c.rules ∧ c'.claims = c.claims ∧
      Sound s.naming s.ids base clash
        (fun id => fresh id ∨ ∃ r ∈ c.rules, r.id = id ∧ r.body.key ∈ ks) after.1 c' := by
  refine foldlM_induction (fun done (middle : Work × Summary) => ∃ c', c'.rules = c.rules ∧
    c'.claims = c.claims ∧ Sound s.naming s.ids base clash
      (fun id => fresh id ∨ ∃ r ∈ c.rules, r.id = id ∧ r.body.key ∈ done) middle.1 c')
    ⟨c, rfl, rfl, h.mono fun x _ hfresh => hfresh.resolve_right (by simp)⟩ ?_ hrecompile
  rintro done k b₁ b₂ - ⟨c₁, hrules, hclaims, h₁⟩ hround
  obtain ⟨c₂, hrules', hclaims', h₂⟩ := h₁.recompile hnow hround
  refine ⟨c₂, hrules'.trans hrules, hclaims'.trans hclaims, h₂.mono fun x _ hfresh => ?_⟩
  rw [hrules]
  obtain hfresh | ⟨r, hr, hid, hkey⟩ := hfresh
  · exact .inl (.inl hfresh)
  · obtain hkey | hkey := List.mem_append.mp hkey
    · exact .inl (.inr ⟨r, hr, hid, hkey⟩)
    · exact .inr ⟨r, hr, hid, List.mem_singleton.mp hkey⟩

lemma dropRule_issued (h : Admin.dropRule w k = .ok (w', removed)) :
    w'.issued = w.issued := by
  unfold Admin.dropRule at h
  obtain ⟨stored, -, h⟩ := bind_eq_ok.mp h
  cases stored with
  | none =>
    cases h
    rfl
  | some r =>
    obtain ⟨_, -, h⟩ := bind_eq_ok.mp h
    obtain ⟨_, -, h⟩ := bind_eq_ok.mp h
    obtain ⟨_, -, h⟩ := bind_eq_ok.mp h
    cases h
    rfl

/-- A stored rule goes with its artifacts. -/
lemma Sound.discardRule {b : RuleRecord} {db₁ db₂ : Database} {deleted : Bool}
    (h : Sound n ids base clash fresh w c) (hb : b ∈ c.rules)
    (hteardown : teardown w.db b.id = .ok (db₁, removed))
    (hdelete : Store.deleteRule db₁ b.body.key = .ok (db₂, deleted)) :
    Sound n ids base clash fresh ⟨db₂, w.catalog.removeRule b.body.key, w.issued⟩
      ((c.without b.id).deleteRule b.body.key) := by
  have hreplaces := teardown_replaces h.defined.stored hteardown
  obtain ⟨hcontains, hspares⟩ := hreplaces.stored.deleteRule hdelete
  have hadmits : c.Admits (.rule b) :=
    h.defined.admits_of_stored (y := .rule b) hb rfl ⟨rfl, rfl⟩
  refine h.discard (x := .rule b) hreplaces hcontains hspares rfl
    (defines_drop_of_admits hadmits rfl rfl) le_rfl ?_ (fun _ => .inr) ?_
  · refine h.defined.catalog.removeRule rfl fun r hr => ?_
    obtain ⟨hr, hkey⟩ := List.mem_filter.mp hr
    exact ⟨hr, of_decide_eq_true hkey⟩
  · exact fun y _ _ ys hys => hys.congr rfl fun _ _ _ _ => rfl

lemma Sound.dropRule (h : Sound n ids base clash fresh w c)
    (hdrop : Admin.dropRule w k = .ok (w', removed)) :
    ∃ c', c'.claims = c.claims ∧ (c'.rules = c.rules.filter fun b => b.body.key ≠ k) ∧
      Sound n ids base clash fresh w' c' := by
  unfold Admin.dropRule at hdrop
  obtain ⟨stored, hstored, hdrop⟩ := bind_eq_ok.mp hdrop
  obtain ⟨rfl, hnone⟩ | ⟨b, hb, rfl, -, rfl⟩ :=
    h.defined.stored.rule_eq_ok.mp (ofStore_eq_ok.mp hstored)
  · cases hdrop
    refine ⟨c, rfl, (List.filter_eq_self.mpr fun b hb => ?_).symm, h⟩
    exact decide_eq_true (hnone b hb)
  · obtain ⟨_, -, hdrop⟩ := bind_eq_ok.mp hdrop
    obtain ⟨⟨db₁, count⟩, hteardown, hdrop⟩ := bind_eq_ok.mp hdrop
    obtain ⟨⟨db₂, deleted⟩, hdelete, hdrop⟩ := bind_eq_ok.mp hdrop
    cases hdrop
    exact ⟨(c.without b.id).deleteRule b.body.key, rfl, rfl,
      h.discardRule hb hteardown (ofStore_eq_ok.mp hdelete)⟩

lemma dropRules_eq_ok (h : Admin.dropRules w table = .ok (w', removed)) :
    ∃ stored, Store.rulesFor w.db table = .ok stored ∧
      stored.reverse.foldlM (fun (acc : Work × Nat) r => do
        let (w, count) ← Admin.dropRule acc.1 ⟨table, r.body.operation⟩
        pure (w, acc.2 + count)) (w, 0) = .ok (w', removed) := by
  unfold Admin.dropRules at h
  obtain ⟨stored, hstored, h⟩ := bind_eq_ok.mp h
  exact ⟨stored, ofStore_eq_ok.mp hstored, h⟩

lemma dropRules_issued (h : Admin.dropRules w table = .ok (w', removed)) :
    w'.issued = w.issued := by
  obtain ⟨stored, -, h⟩ := dropRules_eq_ok h
  refine foldlM_induction (fun _ (middle : Work × Nat) => middle.1.issued = w.issued) rfl
    (fun _ _ _ _ _ hdone hround => ?_) h
  obtain ⟨⟨w₁, count⟩, hdropped, hround⟩ := bind_eq_ok.mp hround
  cases hround
  exact (dropRule_issued hdropped).trans hdone

lemma Sound.dropRules (h : Sound n ids base clash fresh w c)
    (hdrop : Admin.dropRules w table = .ok (w', removed)) :
    ∃ c', c'.claims = c.claims ∧ (c'.rules = c.rules.filter fun b => b.body.table ≠ table) ∧
      Sound n ids base clash fresh w' c' := by
  obtain ⟨stored, hstored, hdrop⟩ := dropRules_eq_ok hdrop
  have hloop := foldlM_induction (fun done (middle : Work × Nat) => ∃ c', c'.claims = c.claims ∧
    (c'.rules = c.rules.filter fun b => ∀ r ∈ done, b.body.key ≠ ⟨table, r.body.operation⟩) ∧
    Sound n ids base clash fresh middle.1 c') ⟨c, rfl, by simp, h⟩ ?_ hdrop
  · obtain ⟨c', hclaims, hrules, h'⟩ := hloop
    refine ⟨c', hclaims, hrules.trans (List.filter_congr fun b hb => ?_), h'⟩
    have hperm := h.defined.stored.rulesFor_eq_ok hstored
    rw [decide_eq_decide]
    constructor
    · intro hall htable
      have hmem : b.reread ∈ stored := hperm.mem_iff.mpr
        (List.mem_map_of_mem (List.mem_filter.mpr ⟨hb, decide_eq_true htable⟩))
      exact hall b.reread (List.mem_reverse.mpr hmem) (by rw [← htable]; rfl)
    · intro htable r _ hkey
      exact htable (congrArg RuleKey.table hkey)
  · rintro done r b₁ b₂ - ⟨c₁, hclaims, hrules, h₁⟩ hround
    obtain ⟨⟨w₂, count⟩, hdropped, hround⟩ := bind_eq_ok.mp hround
    cases hround
    obtain ⟨c₂, hclaims', hrules', h₂⟩ := h₁.dropRule hdropped
    refine ⟨c₂, hclaims'.trans hclaims, ?_, h₂⟩
    rw [hrules', hrules, List.filter_filter]
    refine List.filter_congr fun b _ => ?_
    simp [or_imp, forall_and, Bool.and_comm]

/-! ### Claims -/

/-- No stored rule refers to a claim that the catalog has no referring rule for. -/
lemma Defined.not_references (h : Defined n ids base w c)
    (hnone : w.catalog.rulesReferencing name = []) :
    ∀ r ∈ c.rules, r.body.references name = false := by
  intro r hr
  obtain ⟨d, hd, -, hreferences⟩ := h.catalog.rules r hr
  rw [← hreferences]
  exact Bool.eq_false_iff.mpr (List.filter_eq_nil_iff.mp hnone d hd)

lemma dropClaim_issued (h : Admin.dropClaim w name = .ok (w', removed)) : w'.issued = w.issued := by
  unfold Admin.dropClaim at h
  obtain ⟨stored, -, h⟩ := bind_eq_ok.mp h
  cases stored with
  | none =>
    cases h
    rfl
  | some k =>
    obtain ⟨_, -, h⟩ := bind_eq_ok.mp h
    obtain ⟨_, -, h⟩ := bind_eq_ok.mp h
    obtain ⟨_, -, h⟩ := bind_eq_ok.mp h
    cases h
    rfl

/-- A claim is dropped with its view, if names that clash with others are known to. -/
lemma Sound.dropClaim (h : Sound n ids base clash fresh w c)
    (hclash : ∀ name, c.HasTwin name → clash name)
    (hdrop : Admin.dropClaim w name = .ok (w', removed)) :
    ∃ c', (c'.claims = c.claims.filter fun b => b.body.name ≠ name) ∧ c'.rules = c.rules ∧
      Sound n ids base clash fresh w' c' := by
  unfold Admin.dropClaim at hdrop
  obtain ⟨stored, hstored, hdrop⟩ := bind_eq_ok.mp hdrop
  obtain ⟨rfl, hnone⟩ | ⟨k, hk, rfl, rfl⟩ :=
    h.defined.stored.claim_eq_ok (ofStore_eq_ok.mp hstored)
  · cases hdrop
    refine ⟨c, (List.filter_eq_self.mpr fun b hb => ?_).symm, rfl, h⟩
    exact decide_eq_true (hnone b hb)
  · obtain ⟨_, hcheck, hdrop⟩ := bind_eq_ok.mp hdrop
    obtain ⟨⟨db₁, count⟩, hteardown, hdrop⟩ := bind_eq_ok.mp hdrop
    obtain ⟨⟨db₂, deleted⟩, hdelete, hdrop⟩ := bind_eq_ok.mp hdrop
    cases hdrop
    -- No rule refers to the claim, so all are compiled as before.
    have hunused : w.catalog.rulesReferencing k.body.name = [] := by
      by_contra hne
      rw [ofChecked_eq_ok] at hcheck
      simp [Catalog.checkDropClaim, hne] at hcheck
    have hreplaces := teardown_replaces h.defined.stored hteardown
    obtain ⟨hcontains, hspares⟩ := hreplaces.stored.deleteClaim (ofStore_eq_ok.mp hdelete)
    have hadmits : c.Admits (.claim k) :=
      h.defined.admits_of_stored (y := .claim k) hk rfl ⟨rfl, rfl⟩
    refine ⟨(c.without k.id).deleteClaim k.body.name, rfl, rfl,
      h.discard (x := .claim k) hreplaces hcontains hspares rfl
        (defines_drop_of_admits hadmits rfl rfl) le_rfl ?_
        (fun name htwin => .inl (hclash name htwin)) ?_⟩
    · refine h.defined.catalog.removeClaim rfl fun b => ?_
      rw [Contents.deleteClaim, List.mem_filter, decide_eq_true_iff]
      rfl
    · intro y hy _ ys hys
      refine hys.congr rfl fun r hyr name hname => Keyed.get?_erase_of_ne ?_
      subst hyr
      rintro rfl
      rw [h.defined.not_references hunused r hy] at hname
      cases hname

lemma defineClaim_eq_ok {k : Claim} (h : Admin.defineClaim s w k = .ok (w', summary)) :
    ∃ existing w₁ record removed db₁ db₂ summary₂, Store.claim w.db k.name = .ok existing ∧
      recordOf s w existing k = (w₁, record) ∧ w.catalog.compileClaim k = .ok () ∧
      Admin.replace w.db record.id
        ([s.naming.renderClaim k].map (ArtifactRecord.ofRendered record.id s.now)) =
          .ok (db₁, removed) ∧
      Store.saveClaim db₁ record = .ok db₂ ∧
      (((w.catalog.insertClaim k).rulesReferencing k.name).map Rule.key).foldlM
        (Admin.recompile s) (⟨db₂, w.catalog.insertClaim k, w₁.issued⟩, summary₂) =
          .ok (w', summary) := by
  unfold Admin.defineClaim at h
  obtain ⟨existing, hexisting, h⟩ := bind_eq_ok.mp h
  obtain ⟨w₁, record, hrecord⟩ : ∃ w₁ record, recordOf s w existing k = (w₁, record) := ⟨_, _, rfl⟩
  rw [hrecord] at h
  obtain ⟨⟨w₂, summary₂⟩, hinstall, h⟩ := bind_eq_ok.mp h
  obtain ⟨db₂, hsave, h⟩ := bind_eq_ok.mp h
  obtain ⟨hdb, hcatalog, hbody, -⟩ := recordOf_eq hrecord
  obtain ⟨removed, hcompile, hreplace, hw₂⟩ := installClaim_eq_ok hinstall
  rw [hcatalog, hbody] at hcompile
  rw [hdb, hbody] at hreplace
  have hcatalog₂ : w₂.catalog = w.catalog := by rw [hw₂, hcatalog]
  have hissued₂ : w₂.issued = w₁.issued := by rw [hw₂]
  dsimp only at h
  rw [hcatalog₂, hissued₂] at h
  exact ⟨existing, w₁, record, removed, w₂.db, db₂, summary₂, ofStore_eq_ok.mp hexisting, hrecord,
    hcompile, hreplace, ofStore_eq_ok.mp hsave, h⟩

lemma defineClaim_issued {k : Claim} (h : Admin.defineClaim s w k = .ok (w', summary)) :
    w.issued ≤ w'.issued := by
  obtain ⟨existing, w₁, record, removed, db₁, db₂, summary₂, -, hrecord, -, -, -, hrecompile⟩ :=
    defineClaim_eq_ok h
  exact (recordOf_issued hrecord).trans_eq (recompileAll_issued hrecompile).symm

lemma Defined.existing_claim {k : ClaimRecord} {existing : Option ClaimRecord}
    (h : Defined n ids base w c) (hexisting : Store.claim w.db k.body.name = .ok existing) :
    (existing = none ∧ ∀ y, c.Defines y → ¬ y.SameSubject (.claim k)) ∨
      ∃ old y, existing = some old ∧ c.Defines y ∧ y.id = old.id ∧ y.SameSubject (.claim k) := by
  obtain ⟨hnone, hnew⟩ | ⟨b, hb, hname, hsome⟩ := h.stored.claim_eq_ok hexisting
  · refine .inl ⟨hnone, fun y hy hsubject => ?_⟩
    cases y with
    | claim b => exact hnew b hy hsubject.1
    | rule r => cases hsubject.2
  · exact .inr ⟨b, .claim b, hsome, hb, rfl, hname, rfl⟩

/-- A claim is defined: it is installed and stored in place of the one with its name, and the rules
that refer to it are compiled again. -/
lemma Sound.defineClaim {k : Claim} (h : Sound s.naming s.ids base clash (fun _ => True) w c)
    (hnow : s.now.IsRegular) (hids : Set.InjOn s.ids (Set.Iio w'.issued))
    (hdefine : Admin.defineClaim s w k = .ok (w', summary)) :
    ∃ (record : ClaimRecord) (c' : Contents), record.body = k ∧ c'.rules = c.rules ∧
      (c'.claims = record :: c.claims.filter fun b => b.body.name ≠ k.name) ∧
      Sound s.naming s.ids base clash (fun _ => True) w' c' := by
  obtain ⟨existing, w₁, record, removed, db₁, db₂, summary₂, hexisting, hrecord, hcompile, hreplace,
    hsave, hrecompile⟩ := defineClaim_eq_ok hdefine
  obtain ⟨-, -, rfl, -⟩ := recordOf_eq hrecord
  have hissued : w'.issued = w₁.issued := recompileAll_issued hrecompile
  obtain ⟨hadmits, hle, hid⟩ := h.defined.admits_record (x := .claim record) hrecord rfl
    (hissued ▸ hids) (h.defined.existing_claim hexisting)
  have hregular : record.IsRegular := recordOf_isRegular hrecord hnow fun old hold => by
    obtain ⟨hnone, -⟩ | ⟨b, hb, -, hsome⟩ := h.defined.stored.claim_eq_ok hexisting
    · cases hnone.symm.trans hold
    · cases hold.symm.trans hsome
      exact (h.defined.stored.claims.all old hb).1
  have hrenders : (Definition.claim record).Renders s.naming w.catalog
      [s.naming.renderClaim record.body] := ⟨hcompile, rfl⟩
  obtain ⟨c₁, hreplaces⟩ := h.replace hnow hadmits hrenders hreplace
  obtain ⟨hstored, hspares⟩ := hreplaces.stored.saveClaim hregular hsave
  have hclaims : ∀ b, b ∈ (c₁.saveClaim record).claims ↔
      b = record ∨ b ∈ c.claims ∧ b.body.name ≠ record.body.name := fun b => by
    rw [Contents.saveClaim, List.mem_cons, List.mem_filter, hreplaces.claims, decide_eq_true_iff]
  -- The rules that refer to the claim are left behind.
  have hsaved : Sound s.naming s.ids base clash
      (fun id => ∀ r ∈ c.rules, r.id = id → r.body.references record.body.name = false)
      ⟨db₂, w.catalog.insertClaim record.body, w₁.issued⟩ (c₁.saveClaim record) := by
    refine h.settle hadmits hreplaces hstored hspares rfl
      (defines_save_of_admits hadmits hreplaces.rules hreplaces.claims) hle hid
      (h.defined.catalog.insertClaim hreplaces.rules hclaims)
      (hrenders.congr rfl (by rintro _ ⟨⟩)) fun y hy _ hfresh => ⟨trivial, fun ys hys => ?_⟩
    refine hys.congr rfl fun r hyr name hname => Keyed.get?_insert_of_ne ?_
    subst hyr
    rintro rfl
    rw [hfresh r hy rfl] at hname
    cases hname
  obtain ⟨c', hrules', hclaims', h'⟩ := hsaved.recompileAll hnow hrecompile
  refine ⟨record, c', rfl, hrules'.trans hreplaces.rules, ?_, h'.mono fun x hx _ => ?_⟩
  · rw [hclaims', Contents.saveClaim, hreplaces.claims]
  · by_cases hreferring : ∃ r ∈ c.rules, r.id = x.id ∧ r.body.references record.body.name = true
    · obtain ⟨r, hr, hrid, hname⟩ := hreferring
      have hr' : r ∈ (c₁.saveClaim record).rules := hreplaces.rules.symm ▸ hr
      obtain ⟨d, hd, hkey, hreferences⟩ := hsaved.defined.catalog.rules r hr'
      refine .inr ⟨r, hr', hrid, List.mem_map.mpr ⟨d, List.mem_filter.mpr ⟨hd, ?_⟩, hkey⟩⟩
      rw [hreferences, hname]
    · refine .inl fun r hr hrid => Bool.eq_false_iff.mpr fun hname => hreferring ?_
      exact ⟨r, hr, hrid, hname⟩

/-! ### Several definitions -/

lemma summarize_induction {step : Work → α → Result (Work × Summary)} {items : List α}
    {summaries : List Summary} (P : List α → Work → Prop) (hstart : P [] w)
    (hstep : ∀ done a w₁ w₂ summary, a ∈ items → P done w₁ → step w₁ a = .ok (w₂, summary) →
      P (done ++ [a]) w₂) (h : summarize step w items = .ok (w', summaries)) : P items w' := by
  refine foldlM_induction (fun done (middle : Work × List Summary) => P done middle.1) hstart
    (fun done a b₁ b₂ ha hdone hround => ?_) h
  obtain ⟨⟨w₂, summary⟩, hone, hround⟩ := bind_eq_ok.mp hround
  cases hround
  exact hstep done a _ w₂ summary ha hdone hone

/-! ### Regeneration -/

lemma rebuild_eq_ok {summaries : List Summary} (h : Admin.rebuild s w = .ok (w', summaries)) :
    ∃ existing db₁ claims w₁ first rules second, Store.artifacts w.db = .ok existing ∧
      removeAll w.db existing = .ok db₁ ∧ Store.claims db₁ = .ok claims ∧
      summarize (installClaim s) { w with db := db₁ } claims = .ok (w₁, first) ∧
      Store.rules w₁.db = .ok rules ∧
      summarize (installRule s) w₁ (installOrder rules) = .ok (w', second) := by
  unfold Admin.rebuild at h
  obtain ⟨existing, hexisting, h⟩ := bind_eq_ok.mp h
  obtain ⟨db₁, hremoved, h⟩ := bind_eq_ok.mp h
  obtain ⟨claims, hclaims, h⟩ := bind_eq_ok.mp h
  obtain ⟨⟨w₁, first⟩, hfirst, h⟩ := bind_eq_ok.mp h
  obtain ⟨rules, hrules, h⟩ := bind_eq_ok.mp h
  obtain ⟨⟨w₂, second⟩, hsecond, h⟩ := bind_eq_ok.mp h
  cases h
  exact ⟨existing, db₁, claims, w₁, first, rules, second, ofStore_eq_ok.mp hexisting, hremoved,
    ofStore_eq_ok.mp hclaims, hfirst, ofStore_eq_ok.mp hrules, hsecond⟩

lemma rebuild_issued {summaries : List Summary} (h : Admin.rebuild s w = .ok (w', summaries)) :
    w'.issued = w.issued := by
  obtain ⟨existing, db₁, claims, w₁, first, rules, second, -, -, -, hfirst, -, hsecond⟩ :=
    rebuild_eq_ok h
  have hclaims : w₁.issued = w.issued := by
    refine summarize_induction (w := { w with db := db₁ }) (fun _ w' => w'.issued = w.issued) rfl
      (fun _ _ _ _ _ _ hdone hinstall => ?_) hfirst
    obtain ⟨removed, -, -, hw⟩ := installClaim_eq_ok hinstall
    rw [hw, hdone]
  refine summarize_induction (fun _ w' => w'.issued = w.issued) hclaims
    (fun _ _ _ _ _ _ hdone hinstall => ?_) hsecond
  obtain ⟨plan, removed, -, -, hw⟩ := installRule_eq_ok hinstall
  rw [hw, hdone]

lemma Sound.removeAll {existing : List ArtifactRecord} {db₁ : Database}
    (h : Sound n ids base clash fresh w c) (hexisting : Store.artifacts w.db = .ok existing)
    (hremove : Admin.removeAll w.db existing = .ok db₁) :
    Sound n ids base clash (fun _ => False) { w with db := db₁ } { c with artifacts := [] } := by
  obtain ⟨existing', hexisting', hperm⟩ := h.defined.stored.artifacts_isOk
  cases hexisting.symm.trans hexisting'
  obtain ⟨hstored, halters⟩ := removeAll_eq_ok h.defined.stored hremove
  have hnone : c.artifacts.filter (fun b => ∀ a ∈ existing, b.identifier ≠ a.identifier) = [] :=
    List.filter_eq_nil_iff.mpr fun b hb hall =>
      of_decide_eq_true hall b (hperm.mem_iff.mpr hb) rfl
  rw [hnone] at hstored
  have hdefines : ∀ x, Contents.Defines { c with artifacts := [] } x ↔ c.Defines x :=
    Contents.defines_congr rfl rfl
  refine ⟨?_, by simp, fun x _ hfresh => hfresh.elim, by simp⟩
  exact { h.defined with
    stored := hstored
    tables := halters.tables.trans h.defined.tables
    closed := halters.closed h.defined.closed
    unreserved := fun v hv => (halters.created v hv).elim (h.defined.unreserved v) (.inr ·.2)
    ids_injective := fun x y hx hy => h.defined.ids_injective x y ((hdefines x).mp hx)
      ((hdefines y).mp hy)
    issued := fun x hx => h.defined.issued x ((hdefines x).mp hx)
    catalog := h.defined.catalog.congr (fun _ => Iff.rfl) fun _ hr => hr
    full := fun name t ht hname => h.defined.full name t (halters.table?_eq ht hname) hname }

/-- Stored definitions are installed again one after the other, each as it is rendered. -/
lemma Sound.reinstallAll {step : Work → Stamped α → Result (Work × Summary)}
    {items : List (Stamped α)} {summaries : List Summary}
    (h : Sound s.naming s.ids base clash fresh w c) (hnow : s.now.IsRegular)
    (hstep : ∀ a ∈ items, ∃ x, c.Defines x ∧ x.id = a.id ∧ ∀ w₁ w₂ summary,
      step w₁ a = .ok (w₂, summary) → ∃ xs removed, x.Renders s.naming w₁.catalog xs ∧
        Admin.replace w₁.db x.id (xs.map (ArtifactRecord.ofRendered x.id s.now)) =
          .ok (w₂.db, removed) ∧ w₂ = { w₁ with db := w₂.db })
    (hinstall : summarize step w items = .ok (w', summaries)) :
    ∃ c', c'.rules = c.rules ∧ c'.claims = c.claims ∧
      Sound s.naming s.ids base clash (fun id => fresh id ∨ ∃ a ∈ items, a.id = id) w' c' := by
  refine summarize_induction (fun done w' => ∃ c', c'.rules = c.rules ∧ c'.claims = c.claims ∧
    Sound s.naming s.ids base clash (fun id => fresh id ∨ ∃ a ∈ done, a.id = id) w' c')
    ⟨c, rfl, rfl, h.mono fun x _ hfresh => hfresh.resolve_right (by simp)⟩ ?_ hinstall
  rintro done a w₁ w₂ summary ha ⟨c₁, hrules, hclaims, h₁⟩ hone
  obtain ⟨x, hx, hxa, hinstalls⟩ := hstep a ha
  obtain ⟨xs, removed, hrenders, hreplace, hw⟩ := hinstalls w₁ w₂ summary hone
  obtain ⟨c₂, hrules', hclaims', h₂⟩ := h₁.reinstall hnow
    ((Contents.defines_congr hrules hclaims x).mpr hx) hrenders hreplace hw
  refine ⟨c₂, hrules'.trans hrules, hclaims'.trans hclaims, h₂.mono fun y _ hfresh => ?_⟩
  -- The definition was up to date before this round, or it is the one that this round installed.
  simp only [List.mem_append, List.mem_singleton] at hfresh
  obtain hfresh | ⟨a', ha' | rfl, hid⟩ := hfresh
  · exact .inl (.inl hfresh)
  · exact .inl (.inr ⟨a', ha', hid⟩)
  · exact .inr (hid.symm.trans hxa.symm)

lemma Sound.rebuild {summaries : List Summary} (h : Sound s.naming s.ids base clash fresh w c)
    (hnow : s.now.IsRegular) (hrebuild : Admin.rebuild s w = .ok (w', summaries)) :
    ∃ c', c'.rules = c.rules ∧ c'.claims = c.claims ∧
      Sound s.naming s.ids base clash (fun _ => True) w' c' := by
  obtain ⟨existing, db₁, claims, w₁, first, rules, second, hexisting, hremoved, hclaims, hfirst,
    hrules, hsecond⟩ := rebuild_eq_ok hrebuild
  have h₀ := h.removeAll hexisting hremoved
  obtain ⟨claims', hclaims', hkperm⟩ := h₀.defined.stored.claims_isOk
  cases hclaims.symm.trans hclaims'
  obtain ⟨c₁, hrules₁, hclaims₁, h₁⟩ := h₀.reinstallAll hnow (fun k hk =>
    ⟨.claim k, hkperm.mem_iff.mp hk, rfl, fun _ _ _ hone => by
      obtain ⟨removed, hcompile, hreplace, hw⟩ := installClaim_eq_ok hone
      exact ⟨_, removed, ⟨hcompile, rfl⟩, hreplace, hw⟩⟩) hfirst
  -- The rules are installed as they are read back.
  obtain ⟨-, hrperm⟩ := h₁.defined.stored.rules_eq_ok hrules
  have horder : (installOrder rules).Perm (c₁.rules.map RuleRecord.reread) :=
    (Text.perm_sortByKey rules).trans hrperm
  obtain ⟨c₂, hrules₂, hclaims₂, h₂⟩ := h₁.reinstallAll hnow (fun r hr => by
    obtain ⟨b, hb, rfl⟩ := List.mem_map.mp (horder.mem_iff.mp hr)
    refine ⟨.rule b, hb, rfl, fun _ _ _ hone => ?_⟩
    obtain ⟨plan, removed, hplan, hreplace, hw⟩ := installRule_eq_ok hone
    exact ⟨_, removed, ⟨b.body.reread, plan, .inr rfl, hplan, rfl⟩, hreplace, hw⟩) hsecond
  refine ⟨c₂, hrules₂.trans hrules₁, hclaims₂.trans hclaims₁, h₂.mono fun x hx _ => ?_⟩
  cases x with
  | claim k =>
    have hk : k ∈ c.claims := hclaims₁ ▸ hclaims₂ ▸ hx
    exact .inl (.inr ⟨k, hkperm.mem_iff.mpr hk, rfl⟩)
  | rule r =>
    have hr : r ∈ c₁.rules := hrules₂ ▸ hx
    exact .inr ⟨r.reread, horder.mem_iff.mpr (List.mem_map_of_mem hr), rfl⟩

/-! ### Definitions in force -/

/-- The claims and the rules in force, as they were given. -/
structure Policy where
  claims : List Claim := []
  rules : List Rule := []

namespace Policy

def setRule (p : Policy) (r : Rule) : Policy :=
  { p with rules := r :: p.rules.filter fun b => b.key ≠ r.key }

def setClaim (p : Policy) (k : Claim) : Policy :=
  { p with claims := k :: p.claims.filter fun b => b.name ≠ k.name }

end Policy

/-- What is stored, without identifiers and stamps. -/
def policyOf (c : Contents) : Policy := ⟨c.claims.map Stamped.body, c.rules.map Stamped.body⟩

/-- If the identifiers that were given out are distinct, the store holds the definitions in force
and the registry is sound and up to date. -/
def Stands (n : Naming) (ids : Nat → Uuid) (base : Database) (clash : String → Prop) (p : Policy)
    (w : Work) : Prop :=
  Set.InjOn ids (Set.Iio w.issued) → ∃ c : Contents, policyOf c = p ∧
    Sound n ids base clash (fun _ => True) w c

section

variable {p : Policy} {summaries : List Summary}

lemma Stands.defineRule (h : Stands s.naming s.ids base clash p w) (hnow : s.now.IsRegular)
    (hdefine : Admin.defineRule s w r = .ok (w', summary)) :
    Stands s.naming s.ids base clash (p.setRule r) w' := by
  intro hids
  obtain ⟨c, rfl, hc⟩ := h (hids.mono (Set.Iio_subset_Iio (defineRule_issued hdefine)))
  obtain ⟨record, c₁, rfl, hrules, hclaims, h', -⟩ := hc.defineRule hnow hids hdefine
  refine ⟨_, ?_, h'⟩
  simp only [policyOf, Policy.setRule, Contents.saveRule, hrules, hclaims, List.map_cons,
    List.filter_map]
  rfl

lemma Stands.defineClaim {k : Claim} (h : Stands s.naming s.ids base clash p w)
    (hnow : s.now.IsRegular) (hdefine : Admin.defineClaim s w k = .ok (w', summary)) :
    Stands s.naming s.ids base clash (p.setClaim k) w' := by
  intro hids
  obtain ⟨c, rfl, hc⟩ := h (hids.mono (Set.Iio_subset_Iio (defineClaim_issued hdefine)))
  obtain ⟨record, c', rfl, hrules, hclaims, h'⟩ := hc.defineClaim hnow hids hdefine
  refine ⟨c', ?_, h'⟩
  simp only [policyOf, Policy.setClaim, hrules, hclaims, List.map_cons, List.filter_map]
  rfl

lemma Stands.applyDocument {d : Document} (h : Stands s.naming s.ids base clash p w)
    (hnow : s.now.IsRegular) (happly : Admin.applyDocument s w d = .ok (w', summaries)) :
    Stands s.naming s.ids base clash
      (d.orderedRules.foldl Policy.setRule (d.claims.foldl Policy.setClaim p)) w' := by
  unfold Admin.applyDocument at happly
  obtain ⟨⟨w₁, first⟩, hclaims, happly⟩ := bind_eq_ok.mp happly
  obtain ⟨⟨w₂, second⟩, hrules, happly⟩ := bind_eq_ok.mp happly
  cases happly
  have h₁ := summarize_induction
    (fun done => Stands s.naming s.ids base clash (done.foldl Policy.setClaim p)) h
    (fun done k _ _ _ _ hw hdefine => by
      rw [List.foldl_append]
      exact hw.defineClaim hnow hdefine) hclaims
  refine summarize_induction (fun done => Stands s.naming s.ids base clash
    (done.foldl Policy.setRule (d.claims.foldl Policy.setClaim p))) h₁
    (fun done r _ _ _ _ hw hdefine => ?_) hrules
  rw [List.foldl_append]
  exact hw.defineRule hnow hdefine

lemma Stands.dropRule (h : Stands n ids base clash p w)
    (hdrop : Admin.dropRule w k = .ok (w', removed)) :
    Stands n ids base clash { p with rules := p.rules.filter fun b => b.key ≠ k } w' := by
  intro hids
  obtain ⟨c, rfl, hc⟩ := h (dropRule_issued hdrop ▸ hids)
  obtain ⟨c', hclaims, hrules, h'⟩ := hc.dropRule hdrop
  refine ⟨c', ?_, h'⟩
  simp only [policyOf, hclaims, hrules, List.filter_map]
  rfl

lemma Stands.dropRules (h : Stands n ids base clash p w)
    (hdrop : Admin.dropRules w table = .ok (w', removed)) :
    Stands n ids base clash { p with rules := p.rules.filter fun b => b.table ≠ table } w' := by
  intro hids
  obtain ⟨c, rfl, hc⟩ := h (dropRules_issued hdrop ▸ hids)
  obtain ⟨c', hclaims, hrules, h'⟩ := hc.dropRules hdrop
  refine ⟨c', ?_, h'⟩
  simp only [policyOf, hclaims, hrules, List.filter_map]
  rfl

lemma Stands.dropClaim (h : Stands n ids base clash p w)
    (hclash : ∀ c, Contains w.db c → ∀ name, c.HasTwin name → clash name)
    (hdrop : Admin.dropClaim w name = .ok (w', removed)) :
    Stands n ids base clash { p with claims := p.claims.filter fun b => b.name ≠ name } w' := by
  intro hids
  obtain ⟨c, rfl, hc⟩ := h (dropClaim_issued hdrop ▸ hids)
  obtain ⟨c', hclaims, hrules, h'⟩ := hc.dropClaim (hclash c hc.defined.stored) hdrop
  refine ⟨c', ?_, h'⟩
  simp only [policyOf, hclaims, hrules, List.filter_map]
  rfl

lemma Stands.rebuild (h : Stands s.naming s.ids base clash p w) (hnow : s.now.IsRegular)
    (hrebuild : Admin.rebuild s w = .ok (w', summaries)) :
    Stands s.naming s.ids base clash p w' := by
  intro hids
  obtain ⟨c, rfl, hc⟩ := h (rebuild_issued hrebuild ▸ hids)
  obtain ⟨c', hrules, hclaims, h'⟩ := hc.rebuild hnow hrebuild
  exact ⟨c', by rw [policyOf, hrules, hclaims, policyOf], h'⟩

end

end

end Admin

end RowPolicy
