import RowPolicy.Proofs.Admin.Views
import RowPolicy.Proofs.Store.Contents

/-!
# Installation

What the installation and the removal of artifacts do to the contents of the store and to the views
of the database.
-/

namespace RowPolicy

open Store

/-- The names of views that the installation or the removal of an artifact touches. -/
def ArtifactRecord.viewNames (a : ArtifactRecord) : List String :=
  if a.kind.isView then [a.identifier] else []

def ArtifactRecord.rendered (a : ArtifactRecord) : Rendered :=
  ⟨a.identifier, a.kind, a.target, a.operation, a.body⟩

@[simp] lemma ArtifactRecord.rendered_ofRendered (owner : Uuid) (now : Instant) (x : Rendered) :
    (ofRendered owner now x).rendered = x := rfl

/-- The view of an artifact, if it has one, can be dropped. -/
def ArtifactRecord.IsDroppable (db : Database) (a : ArtifactRecord) : Prop :=
  a.kind.isView = true →
    Sql.parse (Sql.dropView a.identifier) ≠ .error ∧ db.table? a.identifier = none

lemma ArtifactRecord.IsDroppable.congr {db db' : Database} {a : ArtifactRecord}
    (h : a.IsDroppable db) (htables : db'.schema.tables = db.schema.tables) : a.IsDroppable db' :=
  fun hview => ⟨(h hview).1, Database.table?_eq_none_of_schema htables (h hview).2⟩

/-- A view is registered as a view and its text creates it. -/
def ArtifactRecord.IsCreated (a : ArtifactRecord) : Prop :=
  ∀ sql, a.body = .view sql → a.kind.isView = true ∧ Database.CreatesView a.identifier sql

namespace Database

variable {db : Database} {names : List String}

def withoutViews (db : Database) (names : List String) : Database := names.foldl withoutView db

@[simp] lemma tables_withoutViews (db : Database) (names : List String) :
    (db.withoutViews names).tables = db.tables := by
  induction names generalizing db with
  | nil => rfl
  | cons name names ih => exact ih (db.withoutView name)

lemma alters_withoutViews : Alters names db (db.withoutViews names) := by
  induction names generalizing db with
  | nil => exact .refl db
  | cons name names ih => exact alters_withoutView.trans ih

lemma views_withoutViews (db : Database) (names : List String) :
    (db.withoutViews names).views =
      db.views.filter fun v => ∀ name ∈ names, Text.sameName v.name name = false := by
  induction names generalizing db with
  | nil => simp [withoutViews]
  | cons name names ih =>
    rw [withoutViews, List.foldl_cons, ← withoutViews, ih, withoutView, List.filter_filter]
    exact List.filter_congr fun v _ => by simp [Bool.and_comm]

end Database

namespace Store

lemma Contains.congr {db db' : Database} {c : Contents} (h : Contains db c)
    (htables : db'.tables = db.tables) : Contains db' c := by
  have htable : ∀ name, db'.table? name = db.table? name := fun name => by
    rw [Database.table?, Database.table?, htables]
  refine ⟨?_, ?_, ?_, ?_⟩
  · rw [Database.HasDistinctTables, htables]
    exact h.distinct
  · exact ⟨h.rules.holds.congr (htable _), h.rules.keys, h.rules.all⟩
  · exact ⟨h.claims.holds.congr (htable _), h.claims.keys, h.claims.all⟩
  · exact ⟨h.artifacts.holds.congr (htable _), h.artifacts.keys, h.artifacts.all⟩

def Contents.without (c : Contents) (owner : Uuid) : Contents :=
  { c with artifacts := c.artifacts.filter fun a => a.owner ≠ owner }

end Store

namespace Admin

variable {db db' : Database} {c : Contents} {a : ArtifactRecord} {as : List ArtifactRecord}
  {owner : Uuid}

lemma ofStore_eq_ok {α : Type} {r : Stored α} {x : α} : ofStore r = .ok x ↔ r = .ok x :=
  mapError_eq_ok

lemma ofChecked_eq_ok {α : Type} {r : Checked α} {x : α} : ofChecked r = .ok x ↔ r = .ok x :=
  mapError_eq_ok

/-! ### Removal -/

lemma remove_parts (h : remove db a = .ok db') :
    ∃ removed, Store.deleteArtifact (db.withoutViews a.viewNames) a.identifier =
      .ok (db', removed) := by
  unfold remove at h
  dsimp only at h
  unfold ArtifactRecord.viewNames
  split at h
  next hview =>
    obtain ⟨⟨dropped, effect⟩, hdropped, h⟩ := bind_eq_ok.mp h
    rw [pure_bind] at h
    obtain ⟨⟨deleted, removed⟩, hdeleted, h⟩ := bind_eq_ok.mp h
    cases h
    obtain rfl := Database.execute_dropView (mapError_eq_ok.mp (ofStore_eq_ok.mp hdropped))
    rw [if_pos hview]
    exact ⟨removed, ofStore_eq_ok.mp hdeleted⟩
  next hview =>
    rw [pure_bind] at h
    obtain ⟨⟨deleted, removed⟩, hdeleted, h⟩ := bind_eq_ok.mp h
    cases h
    rw [if_neg hview]
    exact ⟨removed, ofStore_eq_ok.mp hdeleted⟩

lemma remove_eq_ok (hc : Contains db c) (h : remove db a = .ok db') :
    Contains db' (c.deleteArtifact a.identifier) ∧ Database.Alters a.viewNames db db' := by
  obtain ⟨removed, hdeleted⟩ := remove_parts h
  obtain ⟨hcontains, hspares⟩ :=
    (hc.congr (Database.tables_withoutViews db a.viewNames)).deleteArtifact hdeleted
  have halters : Database.Alters [] (db.withoutViews a.viewNames) db' := .of_spares hspares
  exact ⟨hcontains, List.append_nil a.viewNames ▸ Database.alters_withoutViews.trans halters⟩

lemma removeAll_eq_ok (hc : Contains db c) (h : removeAll db as = .ok db') :
    Contains db' { c with
      artifacts := c.artifacts.filter fun b => ∀ a ∈ as, b.identifier ≠ a.identifier } ∧
    Database.Alters (as.flatMap ArtifactRecord.viewNames) db db' := by
  unfold removeAll at h
  induction as generalizing db c with
  | nil =>
    cases h
    exact ⟨by simpa using hc, .refl _⟩
  | cons a as ih =>
    rw [List.foldlM_cons] at h
    obtain ⟨db₁, hfirst, h⟩ := bind_eq_ok.mp h
    obtain ⟨hcontains, halters⟩ := remove_eq_ok hc hfirst
    obtain ⟨hcontains', halters'⟩ := ih hcontains h
    refine ⟨?_, halters.trans halters'⟩
    simpa [Contents.deleteArtifact, List.filter_filter, Bool.and_comm] using hcontains'

lemma teardown_eq_ok {removed : Nat} (hc : Contains db c)
    (h : teardown db owner = .ok (db', removed)) :
    Contains db' (c.without owner) ∧ ∃ as : List ArtifactRecord,
      as.Perm (c.artifacts.filter fun a => a.owner = owner) ∧
      Database.Alters (as.flatMap ArtifactRecord.viewNames) db db' := by
  unfold teardown at h
  obtain ⟨as, has, h⟩ := bind_eq_ok.mp h
  obtain ⟨removedDb, hremoved, h⟩ := bind_eq_ok.mp h
  cases h
  obtain ⟨as', has', hperm⟩ := hc.artifactsOf_isOk owner
  obtain rfl : as' = as := Except.ok.inj (has'.symm.trans (ofStore_eq_ok.mp has))
  obtain ⟨hcontains, halters⟩ := removeAll_eq_ok hc hremoved
  refine ⟨?_, as', hperm, halters⟩
  -- An identifier is that of one artifact only.
  have hfilter : c.artifacts.filter (fun b => ∀ a ∈ as', b.identifier ≠ a.identifier) =
      c.artifacts.filter fun a => a.owner ≠ owner := by
    refine List.filter_congr fun b hb => decide_eq_decide.mpr ⟨fun hall howner => ?_, ?_⟩
    · exact hall b (hperm.mem_iff.mpr (List.mem_filter.mpr ⟨hb, decide_eq_true howner⟩)) rfl
    · intro howner a ha heq
      obtain ⟨ha, ha'⟩ := List.mem_filter.mp (hperm.mem_iff.mp ha)
      exact howner (hc.artifacts.eq_of_key hb ha heq ▸ of_decide_eq_true ha')
  rw [hfilter] at hcontains
  exact hcontains

/-! ### Installation -/

lemma install_parts (ha : a.IsCreated) (h : install db a = .ok db') :
    ∃ created, created.tables = db.tables ∧ Database.Alters a.viewNames db created ∧
      (∀ sql, a.body = .view sql → created.Installed a.identifier sql) ∧
      Store.saveArtifact created a = .ok db' := by
  unfold install at h
  dsimp only at h
  split at h
  next sql hbody =>
    obtain ⟨created, hcreated, h⟩ := bind_eq_ok.mp h
    obtain ⟨hkind, htext⟩ := ha sql hbody
    obtain ⟨htables, halters, hinstalled⟩ := installView_eq_ok htext hcreated
    rw [ArtifactRecord.viewNames, if_pos hkind]
    refine ⟨created, htables, halters, fun sql' hbody' => ?_, ofStore_eq_ok.mp h⟩
    cases hbody.symm.trans hbody'
    exact hinstalled
  next hbody =>
    exact ⟨db, rfl, .refl db, fun sql hsql => absurd hsql (hbody sql), ofStore_eq_ok.mp h⟩

lemma install_eq_ok (hc : Contains db c) (hregular : a.createdAt.IsRegular) (ha : a.IsCreated)
    (h : install db a = .ok db') :
    Contains db' (c.saveArtifact a) ∧ Database.Alters a.viewNames db db' ∧
      ∀ sql, a.body = .view sql → db'.Installed a.identifier sql := by
  obtain ⟨created, htables, halters, hinstalled, hsaved⟩ := install_parts ha h
  obtain ⟨hcontains, hspares⟩ := (hc.congr htables).saveArtifact hregular hsaved
  have halters' : Database.Alters [] created db' := .of_spares hspares
  refine ⟨hcontains, List.append_nil a.viewNames ▸ halters.trans halters', fun sql hsql => ?_⟩
  exact (hinstalled sql hsql).alters halters' (by simp)

/-- Artifacts are installed one after the other; each stands if no later one takes its view. -/
lemma installAll_eq_ok (hc : Contains db c) (hregular : ∀ a ∈ as, a.createdAt.IsRegular)
    (hcreated : ∀ a ∈ as, a.IsCreated)
    (hviews : as.Pairwise fun a b => ∀ name ∈ b.viewNames, Text.sameName name a.identifier = false)
    (h : as.foldlM install db = .ok db') :
    Contains db' (as.foldl Contents.saveArtifact c) ∧
      Database.Alters (as.flatMap ArtifactRecord.viewNames) db db' ∧
      ∀ a ∈ as, ∀ sql, a.body = .view sql → db'.Installed a.identifier sql := by
  induction as generalizing db c with
  | nil =>
    cases h
    exact ⟨hc, .refl _, by simp⟩
  | cons a as ih =>
    rw [List.foldlM_cons] at h
    obtain ⟨db₁, hfirst, h⟩ := bind_eq_ok.mp h
    rw [List.forall_mem_cons] at hregular hcreated
    rw [List.pairwise_cons] at hviews
    obtain ⟨hcontains, halters, hinstalled⟩ := install_eq_ok hc hregular.1 hcreated.1 hfirst
    obtain ⟨hcontains', halters', hinstalled'⟩ :=
      ih hcontains hregular.2 hcreated.2 hviews.2 h
    refine ⟨hcontains', halters.trans halters', List.forall_mem_cons.mpr ⟨fun sql hsql => ?_, ?_⟩⟩
    · refine (hinstalled sql hsql).alters halters' fun name hname => ?_
      obtain ⟨b, hb, hname⟩ := List.mem_flatMap.mp hname
      exact hviews.1 b hb name hname
    · exact hinstalled'

lemma saveAll_definitions (as : List ArtifactRecord) (c : Contents) :
    (as.foldl Contents.saveArtifact c).rules = c.rules ∧
      (as.foldl Contents.saveArtifact c).claims = c.claims := by
  induction as generalizing c with
  | nil => exact ⟨rfl, rfl⟩
  | cons a as ih => exact ih (c.saveArtifact a)

lemma mem_saveAll {b : ArtifactRecord} (hnodup : (as.map ArtifactRecord.identifier).Nodup)
    (hfree : ∀ b ∈ c.artifacts, ∀ a ∈ as, b.identifier ≠ a.identifier) :
    b ∈ (as.foldl Contents.saveArtifact c).artifacts ↔ b ∈ as ∨ b ∈ c.artifacts := by
  induction as generalizing c with
  | nil => simp
  | cons a as ih =>
    rw [List.map_cons, List.nodup_cons] at hnodup
    have hkept : c.artifacts.filter (fun b => b.identifier ≠ a.identifier) = c.artifacts :=
      List.filter_eq_self.mpr fun b hb => decide_eq_true (hfree b hb a List.mem_cons_self)
    have hsaved : (c.saveArtifact a).artifacts = a :: c.artifacts := by
      rw [Contents.saveArtifact, hkept]
    rw [List.foldl_cons, ih hnodup.2, hsaved, List.mem_cons, List.mem_cons]
    · tauto
    · rw [hsaved]
      intro b hb a' ha'
      obtain rfl | hb := List.mem_cons.mp hb
      · exact fun heq => hnodup.1 (heq ▸ List.mem_map_of_mem ha')
      · exact hfree b hb a' (List.mem_cons_of_mem _ ha')

/-- The artifacts of a definition are replaced by new ones. -/
structure Replaces (owner : Uuid) (new : List ArtifactRecord) (c c' : Contents)
    (db db' : Database) : Prop where
  stored : Contains db' c'
  rules : c'.rules = c.rules
  claims : c'.claims = c.claims
  artifacts : ∀ a, a ∈ c'.artifacts ↔ a ∈ new ∨ a ∈ c.artifacts ∧ a.owner ≠ owner
  alters : ∃ names, Database.Alters names db db' ∧ ∀ name ∈ names,
    (∃ a ∈ c.artifacts, a.owner = owner ∧ name ∈ a.viewNames) ∨ ∃ a ∈ new, name ∈ a.viewNames
  installed : ∀ a ∈ new, ∀ sql, a.body = .view sql → db'.Installed a.identifier sql

lemma teardown_replaces {removed : Nat} (hc : Contains db c)
    (h : teardown db owner = .ok (db', removed)) :
    Replaces owner [] c (c.without owner) db db' := by
  obtain ⟨hcontains, as, hperm, halters⟩ := teardown_eq_ok hc h
  refine ⟨hcontains, rfl, rfl, by simp [Contents.without], ⟨_, halters, fun name hname => ?_⟩,
    by simp⟩
  obtain ⟨a, ha, hname⟩ := List.mem_flatMap.mp hname
  obtain ⟨ha, howner⟩ := List.mem_filter.mp (hperm.mem_iff.mp ha)
  exact .inl ⟨a, ha, of_decide_eq_true howner, hname⟩

/-- Artifacts are installed in place of those of a definition if no other definition has their
identifiers. -/
lemma replace_replaces {removed : Nat} (hc : Contains db c)
    (hregular : ∀ a ∈ as, a.createdAt.IsRegular) (hcreated : ∀ a ∈ as, a.IsCreated)
    (hviews : as.Pairwise fun a b => ∀ name ∈ b.viewNames, Text.sameName name a.identifier = false)
    (hnodup : (as.map ArtifactRecord.identifier).Nodup)
    (hfree : ∀ b ∈ c.artifacts, b.owner ≠ owner → ∀ a ∈ as, b.identifier ≠ a.identifier)
    (h : Admin.replace db owner as = .ok (db', removed)) :
    ∃ c', Replaces owner as c c' db db' := by
  unfold Admin.replace at h
  obtain ⟨⟨torn, count⟩, hteardown, h⟩ := bind_eq_ok.mp h
  obtain ⟨installed, hinstalled, h⟩ := bind_eq_ok.mp h
  cases h
  have hgone := teardown_replaces hc hteardown
  obtain ⟨names, halters, hnames⟩ := hgone.alters
  obtain ⟨hcontains, halters', hviews⟩ :=
    installAll_eq_ok hgone.stored hregular hcreated hviews hinstalled
  obtain ⟨hrules, hclaims⟩ := saveAll_definitions as (c.without owner)
  refine ⟨_, hcontains, hrules, hclaims, fun a => ?_, ⟨_, halters.trans halters', ?_⟩, hviews⟩
  · rw [mem_saveAll hnodup, hgone.artifacts]
    · simp
    · intro b hb
      obtain ⟨hb, howner⟩ := List.mem_filter.mp hb
      exact hfree b hb (of_decide_eq_true howner)
  · rw [List.forall_mem_append]
    refine ⟨fun name hname => ?_, fun name hname => ?_⟩
    · obtain hold | ⟨a, ha, -⟩ := hnames name hname
      · exact .inl hold
      · cases ha
    · obtain ⟨a, ha, hname⟩ := List.mem_flatMap.mp hname
      exact .inr ⟨a, ha, hname⟩

end Admin

end RowPolicy
