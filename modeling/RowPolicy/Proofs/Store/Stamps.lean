import RowPolicy.Proofs.Store.Lockstep

/-!
# Databases that differ in stamps

Two databases are alike if they have the same tables and views and, but for the times of their
records, the same rows. What the store writes to both keeps them alike, and what it reads from both
is the same but for the times.
-/

namespace RowPolicy

open Store

/-- The same definition, with stamps that can be read back. -/
structure Stamped.Same {α : Type} (P : α → Prop) (a b : Stamped α) : Prop where
  same : ∃ created updated, b = { a with createdAt := created, updatedAt := updated }
  regular : a.IsRegular
  regular' : b.IsRegular
  holds : P a.body

/-- The same artifact, with a stamp that can be read back. -/
structure ArtifactRecord.Same (a b : ArtifactRecord) : Prop where
  same : ∃ created, b = { a with createdAt := created }
  regular : a.createdAt.IsRegular
  regular' : b.createdAt.IsRegular

namespace Stamped.Same

variable {α : Type} {P : α → Prop} {a b : Stamped α}

lemma id_eq (h : Same P a b) : a.id = b.id := by
  obtain ⟨⟨_, _, rfl⟩, -⟩ := h
  rfl

lemma body_eq (h : Same P a b) : a.body = b.body := by
  obtain ⟨⟨_, _, rfl⟩, -⟩ := h
  rfl

end Stamped.Same

namespace ArtifactRecord.Same

variable {a b : ArtifactRecord}

lemma identifier_eq (h : Same a b) : a.identifier = b.identifier := by
  obtain ⟨⟨_, rfl⟩, -⟩ := h
  rfl

lemma body_eq (h : Same a b) : a.body = b.body := by
  obtain ⟨⟨_, rfl⟩, -⟩ := h
  rfl

end ArtifactRecord.Same

namespace Store

variable {db db' d d' : Database}

/-! ### The tables of the store -/

lemma steady_rules : Steady ruleRows (Stamped.Same Rule.IsReadable) where
  noRowId := by decide
  notNull := by
    rintro a b ⟨⟨_, _, rfl⟩, -⟩
    simp [ruleRows, Table.checkNotNull, ruleTable, List.zipIdx, Cell.isNull]
  agree := by
    rintro a b c d ⟨⟨_, _, rfl⟩, -⟩ ⟨⟨_, _, rfl⟩, -⟩
    change ∀ set ∈ ruleTable.uniqueSets, _
    rw [show ruleTable.uniqueSets = [[0, 1], [2]] by decide]
    simp [ruleRows, Table.agree]

lemma steady_claims : Steady claimRows (Stamped.Same fun _ => True) where
  noRowId := by decide
  notNull := by
    rintro a b ⟨⟨_, _, rfl⟩, -⟩
    simp [claimRows, Table.checkNotNull, claimTable, List.zipIdx, Cell.isNull]
  agree := by
    rintro a b c d ⟨⟨_, _, rfl⟩, -⟩ ⟨⟨_, _, rfl⟩, -⟩
    change ∀ set ∈ claimTable.uniqueSets, _
    rw [show claimTable.uniqueSets = [[0], [1]] by decide]
    simp [claimRows, Table.agree]

lemma steady_artifacts : Steady artifactRows ArtifactRecord.Same where
  noRowId := by decide
  notNull := by
    rintro a b ⟨⟨_, rfl⟩, -⟩
    simp only [artifactRows, Table.checkNotNull, artifactTable, Cell.isNull, List.zipIdx,
      List.zip_cons_cons, List.find?_cons, Bool.and_false]
  agree := by
    rintro a b c d ⟨⟨_, rfl⟩, -⟩ ⟨⟨_, rfl⟩, -⟩
    change ∀ set ∈ artifactTable.uniqueSets, _
    rw [show artifactTable.uniqueSets = [[0]] by decide]
    simp [artifactRows, Table.agree]

/-! ### Databases alike -/

/-- Databases with the same tables and views, whose rows differ in stamps of the store only. -/
structure Alike (db db' : Database) : Prop where
  distinct : db.HasDistinctTables
  schema : db'.schema = db.schema
  others : ∀ name t, db.table? name = some t → t.name ∉ tableNames → db'.table? name = some t
  rules : Pair ruleRows (Stamped.Same Rule.IsReadable) db db'
  claims : Pair claimRows (Stamped.Same fun _ => True) db db'
  artifacts : Pair artifactRows ArtifactRecord.Same db db'

section

variable {α β : Type} {T : RecordTable α} {S : α → α → Prop} {T' : RecordTable β}
  {S' : β → β → Prop}

lemma Pair.stored (h : Pair T S db db') (hstores : Stores T S db db' d d') : Pair T S d d' := by
  obtain ⟨t, t', ht, ht', halike⟩ := h
  obtain ⟨u, u', halike', rfl, rfl⟩ := hstores
  exact ⟨u, u',
    Database.table?_setTable_of_name ht
      (Database.name_of_schema (halike.schema.trans halike'.schema.symm)),
    Database.table?_setTable_of_name ht'
      (Database.name_of_schema (halike.schema'.trans halike'.schema'.symm)), halike'⟩

lemma Pair.spared (h : Pair T' S' db db') (hstores : Stores T S db db' d d')
    (hne : T'.table.name ≠ T.table.name) : Pair T' S' d d' := by
  obtain ⟨t, t', ht, ht', halike⟩ := h
  obtain ⟨u, u', halike', rfl, rfl⟩ := hstores
  have hname : ∀ {t : Table} {U : Table}, t.schema = U → t.name = U.name := fun hschema =>
    (congrArg Table.name hschema : _)
  refine ⟨t, t', Database.table?_setTable_of_ne ht ?_, Database.table?_setTable_of_ne ht' ?_,
    halike⟩
  · rw [hname halike.schema, hname halike'.schema]
    exact hne
  · rw [hname halike.schema', hname halike'.schema']
    exact hne

/-- Storing related tables keeps the databases alike but for those tables. -/
lemma Alike.frame (h : Alike db db') (hpair : Pair T S db db')
    (hstores : Stores T S db db' d d') (hname : T.table.name ∈ tableNames) :
    d.HasDistinctTables ∧ d'.schema = d.schema ∧
      ∀ name t, d.table? name = some t → t.name ∉ tableNames → d'.table? name = some t := by
  obtain ⟨t, t', ht, ht', halike⟩ := hpair
  obtain ⟨u, u', halike', rfl, rfl⟩ := hstores
  have hnames : ∀ {t : Table}, t.schema = T.table → t.name = T.table.name := fun hschema =>
    (congrArg Table.name hschema : _)
  have hdistinct' : db'.HasDistinctTables := h.distinct.congr (by rw [h.schema])
  have hschema : (db.setTable u).schema = db.schema := h.distinct.schema_setTable
    (by rw [hnames halike.schema]; exact ht) (halike'.schema.trans halike.schema.symm)
  have hschema' : (db'.setTable u').schema = db'.schema := hdistinct'.schema_setTable
    (by rw [hnames halike.schema']; exact ht') (halike'.schema'.trans halike.schema'.symm)
  refine ⟨h.distinct.congr (by rw [hschema]), by rw [hschema, hschema', h.schema],
    fun name v hv huser => ?_⟩
  -- A table beside the store is not the one that was stored.
  rw [Database.table?_setTable] at hv
  obtain ⟨v₀, hv₀, heq⟩ := Option.map_eq_some_iff.mp hv
  split at heq
  next hsame =>
    subst heq
    exact absurd (hnames halike'.schema ▸ hname) huser
  next hsame =>
    subst heq
    refine Database.table?_setTable_of_ne (h.others name v₀ hv₀ huser) fun hne => huser ?_
    rw [hne, hnames halike'.schema']
    exact hname

end

variable {r r' : RuleRecord} {k k' : ClaimRecord} {a a' : ArtifactRecord}

/-! ### Writing -/

lemma Alike.saveRule (h : Alike db db') (hr : r.Same Rule.IsReadable r') :
    InStep Alike (Store.saveRule db r) (Store.saveRule db' r') := by
  have hkeys := Contains.keys_rule r'
  rw [← hr.body_eq] at hkeys
  have hupsert := h.rules.upsert steady_rules (fun a b hab => by rw [hab.body_eq]) hr
    (Contains.keys_rule r) hkeys (by simp)
  unfold Store.saveRule
  rw [← hr.body_eq]
  refine (hupsert.mapError _).mono fun d d' hstores => ?_
  obtain ⟨hdistinct, hschema, hothers⟩ := h.frame h.rules hstores (by decide)
  exact ⟨hdistinct, hschema, hothers, h.rules.stored hstores,
    h.claims.spared hstores (by decide), h.artifacts.spared hstores (by decide)⟩

lemma Alike.saveClaim (h : Alike db db') (hk : k.Same (fun _ => True) k') :
    InStep Alike (Store.saveClaim db k) (Store.saveClaim db' k') := by
  have hkeys := Contains.keys_claim k'
  rw [← hk.body_eq] at hkeys
  have hupsert := h.claims.upsert steady_claims (fun a b hab => by rw [hab.body_eq]) hk
    (Contains.keys_claim k) hkeys (by simp)
  unfold Store.saveClaim
  rw [← hk.body_eq]
  refine (hupsert.mapError _).mono fun d d' hstores => ?_
  obtain ⟨hdistinct, hschema, hothers⟩ := h.frame h.claims hstores (by decide)
  exact ⟨hdistinct, hschema, hothers, h.rules.spared hstores (by decide),
    h.claims.stored hstores, h.artifacts.spared hstores (by decide)⟩

lemma Alike.saveArtifact (h : Alike db db') (ha : a.Same a') :
    InStep Alike (Store.saveArtifact db a) (Store.saveArtifact db' a') := by
  refine ((h.artifacts.replace steady_artifacts ha
    (Contains.newCells_artifactValues a) (Contains.newCells_artifactValues a')
    rfl).mapError _).mono fun d d' hstores => ?_
  obtain ⟨hdistinct, hschema, hothers⟩ := h.frame h.artifacts hstores (by decide)
  exact ⟨hdistinct, hschema, hothers, h.rules.spared hstores (by decide),
    h.claims.spared hstores (by decide), h.artifacts.stored hstores⟩

lemma Alike.deleteArtifact (h : Alike db db') (identifier : String) :
    InStep (fun x y => Alike x.1 y.1 ∧ x.2 = y.2) (Store.deleteArtifact db identifier)
      (Store.deleteArtifact db' identifier) := by
  refine (h.artifacts.deleteRows ?_).mono fun x y hxy => ⟨?_, hxy.2⟩
  · rintro r r' ⟨-, a, b, ⟨⟨_, rfl⟩, -⟩, hr, hr'⟩
    exact (hasTexts_identifier identifier hr).trans (hasTexts_identifier identifier hr').symm
  · obtain ⟨hdistinct, hschema, hothers⟩ := h.frame h.artifacts hxy.1 (by decide)
    exact ⟨hdistinct, hschema, hothers, h.rules.spared hxy.1 (by decide),
      h.claims.spared hxy.1 (by decide), h.artifacts.stored hxy.1⟩

/-! ### Reading -/

lemma readRecord_alike_rule (h : r.Same Rule.IsReadable r') :
    InStep (Stamped.Same fun _ => True) (readRecord RuleRecord.decode r.toJson.compact)
      (readRecord RuleRecord.decode r'.toJson.compact) := by
  obtain ⟨⟨created, updated, rfl⟩, hregular, hregular', hreadable⟩ := h
  rw [(RuleRecord.readRecord_eq_ok hregular.1 hregular.2).mpr ⟨hreadable, rfl⟩,
    (RuleRecord.readRecord_eq_ok hregular'.1 hregular'.2).mpr ⟨hreadable, rfl⟩]
  exact .ok ⟨⟨created, updated, rfl⟩, hregular, hregular', trivial⟩

lemma readRecord_alike_claim (h : k.Same (fun _ => True) k') :
    InStep (Stamped.Same fun _ => True) (readRecord ClaimRecord.decode k.toJson.compact)
      (readRecord ClaimRecord.decode k'.toJson.compact) := by
  rw [ClaimRecord.readRecord_toJson h.regular.1 h.regular.2,
    ClaimRecord.readRecord_toJson h.regular'.1 h.regular'.2]
  exact .ok h

lemma readRecord_alike_artifact (h : a.Same a') :
    InStep ArtifactRecord.Same (readRecord decodeArtifact a.toJson.compact)
      (readRecord decodeArtifact a'.toJson.compact) := by
  rw [ArtifactRecord.readRecord_toJson h.regular, ArtifactRecord.readRecord_toJson h.regular']
  exact .ok h

lemma Alike.rule (h : Alike db db') (key : RuleKey) :
    InStep (Option.Rel (Stamped.Same fun _ => True)) (Store.rule db key) (Store.rule db' key) := by
  unfold Store.rule
  refine ((h.rules.table _).mapError _).bind fun t t' halike => ?_
  refine halike.readFirst (fun _ _ => Contains.recordText_rule)
    (fun _ _ => readRecord_alike_rule) ?_
  unfold rowsWith
  rw [hasTexts_of_schema halike.schema, hasTexts_of_schema halike.schema']
  refine forall₂_filter halike.rows ?_
  rintro x y ⟨-, a, b, ⟨⟨_, _, rfl⟩, -⟩, hx, hy⟩
  exact (hasTexts_rule key hx).trans (hasTexts_rule key hy).symm

lemma Alike.claim (h : Alike db db') (name : String) :
    InStep (Option.Rel (Stamped.Same fun _ => True)) (Store.claim db name)
      (Store.claim db' name) := by
  unfold Store.claim
  refine ((h.claims.table _).mapError _).bind fun t t' halike => ?_
  refine halike.readFirst (fun _ _ => Contains.recordText_claim)
    (fun _ _ => readRecord_alike_claim) ?_
  unfold rowsWith
  rw [hasTexts_of_schema halike.schema, hasTexts_of_schema halike.schema']
  refine forall₂_filter halike.rows ?_
  rintro x y ⟨-, a, b, ⟨⟨_, _, rfl⟩, -⟩, hx, hy⟩
  exact (hasTexts_claim name hx).trans (hasTexts_claim name hy).symm

lemma forall₂_ordered_artifacts {t t' : Table} {rows rows' : List Row}
    (h : TableAlike artifactRows ArtifactRecord.Same t t')
    (hrows : List.Forall₂ (RowAlike artifactRows ArtifactRecord.Same) rows rows') :
    List.Forall₂ (RowAlike artifactRows ArtifactRecord.Same) (ordered t "identifier" rows)
      (ordered t' "identifier" rows') := by
  refine forall₂_sortByKey hrows ?_
  rintro x y ⟨-, a, b, ⟨⟨_, rfl⟩, -⟩, hx, hy⟩
  have hcell : ∀ {row : Row} {a : ArtifactRecord}, row.cells = artifactRows.cells a →
      cell artifactTable row "identifier" = .text a.identifier := fun hrow =>
    congrArg (List.getD · 0 Cell.null) hrow
  rw [cell_of_schema h.schema, cell_of_schema h.schema']
  exact (hcell hx).trans (hcell hy).symm

lemma Alike.artifactsOf (h : Alike db db') (owner : Uuid) :
    InStep (List.Forall₂ ArtifactRecord.Same) (Store.artifactsOf db owner)
      (Store.artifactsOf db' owner) := by
  unfold Store.artifactsOf
  refine ((h.artifacts.table _).mapError _).bind fun t t' halike => ?_
  refine halike.readRecords (fun _ _ => Contains.recordText_artifact)
    (fun _ _ => readRecord_alike_artifact) (forall₂_ordered_artifacts halike ?_)
  unfold rowsWith
  rw [hasTexts_of_schema halike.schema, hasTexts_of_schema halike.schema']
  refine forall₂_filter halike.rows ?_
  rintro x y ⟨-, a, b, ⟨⟨_, rfl⟩, -⟩, hx, hy⟩
  exact (Contains.hasTexts_owner owner hx).trans (Contains.hasTexts_owner owner hy).symm

lemma Alike.listArtifacts (h : Alike db db') :
    InStep (List.Forall₂ ArtifactRecord.Same) (Store.artifacts db) (Store.artifacts db') := by
  unfold Store.artifacts
  refine ((h.artifacts.table _).mapError _).bind fun t t' halike => ?_
  exact halike.readRecords (fun _ _ => Contains.recordText_artifact)
    (fun _ _ => readRecord_alike_artifact) (forall₂_ordered_artifacts halike halike.rows)

lemma Alike.listClaims (h : Alike db db') :
    InStep (List.Forall₂ (Stamped.Same fun _ => True)) (Store.claims db) (Store.claims db') := by
  unfold Store.claims
  refine ((h.claims.table _).mapError _).bind fun t t' halike => ?_
  refine halike.readRecords (fun _ _ => Contains.recordText_claim)
    (fun _ _ => readRecord_alike_claim) (forall₂_sortByKey halike.rows ?_)
  rintro x y ⟨-, a, b, ⟨⟨_, _, rfl⟩, -⟩, hx, hy⟩
  have hcell : ∀ {row : Row} {k : ClaimRecord}, row.cells = claimRows.cells k →
      cell claimTable row "name" = .text k.body.name := fun hrow =>
    congrArg (List.getD · 0 Cell.null) hrow
  rw [cell_of_schema halike.schema, cell_of_schema halike.schema']
  exact (hcell hx).trans (hcell hy).symm

lemma Alike.listRules (h : Alike db db') :
    InStep (List.Forall₂ (Stamped.Same fun _ => True)) (Store.rules db) (Store.rules db') := by
  unfold Store.rules
  refine ((h.rules.table _).mapError _).bind fun t t' halike => ?_
  refine (halike.readRecords (fun _ _ => Contains.recordText_rule)
    (fun _ _ => readRecord_alike_rule) halike.rows).bind fun rs rs' hrs => ?_
  exact .ok (forall₂_sortByKey hrs fun a b hab => by rw [hab.body_eq])

/-! ### A database and itself -/

lemma Pair.refl {α : Type} {T : RecordTable α} {S : α → α → Prop} {as : List α}
    (h : Holds T db as) (hS : ∀ a ∈ as, S a a) : Pair T S db db := by
  obtain ⟨t, as', ht, hschema, hcells, hperm⟩ := h.exists_rows
  refine ⟨t, t, ht, ht, hschema, hschema, List.forall₂_same.mpr fun row hrow => ?_⟩
  obtain ⟨a, ha, hrow⟩ := exists_cells hcells hrow
  exact ⟨rfl, a, a, hS a (hperm.mem_iff.mp ha), hrow, hrow⟩

/-- A database whose rules can be read is like itself. -/
lemma Contains.alike {c : Contents} (h : Contains db c)
    (hreadable : ∀ r ∈ c.rules, r.body.IsReadable) : Alike db db where
  distinct := h.distinct
  schema := rfl
  others _ _ ht _ := ht
  rules := .refl h.rules.holds fun r hr =>
    ⟨⟨_, _, rfl⟩, h.rules.all r hr, h.rules.all r hr, hreadable r hr⟩
  claims := .refl h.claims.holds fun k hk =>
    ⟨⟨_, _, rfl⟩, h.claims.all k hk, h.claims.all k hk, trivial⟩
  artifacts := .refl h.artifacts.holds fun a ha =>
    ⟨⟨_, rfl⟩, h.artifacts.all a ha, h.artifacts.all a ha⟩

end Store

end RowPolicy
