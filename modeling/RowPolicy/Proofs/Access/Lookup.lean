import RowPolicy.Proofs.Access.Columns
import RowPolicy.Proofs.Access.Create
import RowPolicy.Proofs.Admin.Registration

/-!
# What a request finds

A request looks artifacts up by kind, table and operation. In every state of a run it finds the
artifacts of the rule that is stored for the table and the operation, and none if there is no rule.
-/

namespace RowPolicy

open Store

/-! ### Tables by name -/

lemma Table.shape_eq {t u : Table} (h : t.schema = u.schema) : t.shape = u.shape := by
  have hshape : t.schema.shape = u.schema.shape := congrArg Table.shape h
  exact hshape

lemma Table.isWellFormed_eq {t u : Table} (h : t.schema = u.schema) :
    t.isWellFormed = u.isWellFormed := by
  have hformed : t.schema.isWellFormed = u.schema.isWellFormed := congrArg Table.isWellFormed h
  exact hformed

namespace Database

variable {db base : Database}

lemma HasDistinctTables.table?_eq {t : Table} (h : db.HasDistinctTables) (ht : t ∈ db.tables) :
    db.table? t.name = some t := by
  cases hfound : db.table? t.name with
  | none => exact absurd (List.find?_eq_none.mp hfound t ht) (by simp [Text.sameName_self])
  | some u =>
    have hname : Text.sameName u.name t.name = true := List.find?_some (p := fun u : Table =>
      Text.sameName u.name t.name) hfound
    rw [h.eq_of_sameName (List.mem_of_find?_eq_some hfound) ht hname]

lemma exists_table_of_schema {u : Table} (h : db.schema.tables = base.schema.tables)
    (hu : u ∈ base.tables) : ∃ t ∈ db.tables, t.schema = u.schema := by
  have hmem : u.schema ∈ db.schema.tables := h ▸ List.mem_map_of_mem hu
  obtain ⟨t, ht, hschema⟩ := List.mem_map.mp hmem
  exact ⟨t, ht, hschema⟩

lemma IsUnmanaged.wellFormed_managed (h : db.IsUnmanaged) :
    ∀ t ∈ db.managed.tables, t.isWellFormed = true := by
  intro t ht
  obtain ht | ht := List.mem_append.mp ht
  · exact h.wellFormed t ht
  · exact (by decide : ∀ t ∈ Store.tables, t.isWellFormed = true) t ht

lemma columns_managed (h : ∀ t ∈ db.tables, t.columns ≠ []) :
    ∀ t ∈ db.managed.tables, t.columns ≠ [] := by
  intro t ht
  obtain ht | ht := List.mem_append.mp ht
  · exact h t ht
  · exact (by decide : ∀ t ∈ Store.tables, t.columns ≠ []) t ht

end Database

namespace Admin

variable {n : Naming} {ids : Nat → Uuid} {base user : Database} {clash : String → Prop}
  {w : Work} {c : Contents} {past : List State} {x : State}

/-! ### Artifacts of a rule -/

/-- Without a rule for a table and an operation there is no artifact for them. -/
lemma Sound.findArtifact_eq_none {table : String} {operation : Operation}
    (h : Sound n ids base clash (fun _ => True) w c)
    (hnone : ∀ r ∈ c.rules, r.body.key ≠ ⟨table, operation⟩) (kind : ArtifactKind) :
    Store.findArtifact w.db kind table (some operation) = .ok none := by
  obtain ⟨o, hfind, ⟨rfl, -⟩ | ⟨a, ha, ⟨-, htarget, hoperation⟩, -⟩⟩ :=
    h.defined.stored.findArtifact_isOk kind table (some operation)
  · exact hfind
  · -- The artifact would be one of a rule for the table and the operation.
    obtain ⟨y, hy, -, hytarget, hyoperation⟩ := (h.registered.owned a ha).exists_definition
    cases y with
    | claim k => cases hyoperation.symm.trans hoperation
    | rule r =>
      refine absurd ?_ (hnone r hy)
      rw [Rule.key, RuleKey.mk.injEq]
      exact ⟨hytarget.symm.trans htarget, Option.some.inj (hyoperation.symm.trans hoperation)⟩

/-- The artifacts that are found for a rule are those that compiling it yields. -/
lemma Sound.findArtifact_rule {b : RuleRecord} {d : Rule} {plan : CompiledRule}
    (h : Sound n ids base clash (fun _ => True) w c) (hb : b ∈ c.rules)
    (hd : d = b.body ∨ d = b.body.reread) (hplan : w.catalog.compileRule d = .ok plan)
    (hserves : c.Serves b.id (n.renderRule plan)) (kind : ArtifactKind) :
    ∃ o, Store.findArtifact w.db kind b.body.table (some b.body.operation) = .ok o ∧
      o.map ArtifactRecord.rendered = (n.renderRule plan).find? fun y => y.kind == kind := by
  have hrenders : (Definition.rule b).Renders n w.catalog (n.renderRule plan) :=
    ⟨d, plan, hd, hplan, rfl⟩
  have hnamed := fun y (hy : y ∈ n.renderRule plan) => mem_renders hrenders hy
  obtain ⟨o, hfind, hcases⟩ :=
    h.defined.stored.findArtifact_isOk kind b.body.table (some b.body.operation)
  refine ⟨o, hfind, ?_⟩
  obtain ⟨rfl, hnone⟩ | ⟨a, ha, ⟨hkind, htarget, hoperation⟩, rfl⟩ := hcases
  · rw [Option.map_none, eq_comm, List.find?_eq_none]
    intro y hy hkind
    obtain ⟨a, ha, -, rfl⟩ := (hserves y).mpr hy
    exact hnone a ha ⟨beq_iff_eq.mp hkind, (hnamed _ hy).1, (hnamed _ hy).2.1⟩
  · obtain ⟨y, hy, howner, hytarget, hyoperation⟩ := (h.registered.owned a ha).exists_definition
    obtain rfl : y = .rule b := h.defined.eq_of_target hy hb (hytarget.symm.trans htarget)
      (hyoperation.symm.trans hoperation)
    have hmem := (hserves a.rendered).mp ⟨a, ha, howner, rfl⟩
    rw [Option.map_some, eq_comm]
    -- The artifacts of a rule are of different kinds.
    refine List.find?_eq_some_iff_append.mpr ?_
    obtain ⟨before, after, hsplit⟩ := List.append_of_mem hmem
    refine ⟨beq_iff_eq.mpr hkind, before, after, hsplit, fun y hy => ?_⟩
    have hpairwise := renderRule_pairwise n plan
    rw [hsplit, List.pairwise_append] at hpairwise
    have hne := (hpairwise.2.2 y hy a.rendered List.mem_cons_self).1
    simpa [show a.rendered.kind = kind from hkind] using hne

end Admin

/-! ### Rules in service -/

/-- A rule in service: its table is there under its exact name, and what is found for the rule is
what its plan renders to. The rule was compiled as it was given or as it is read back. -/
structure Naming.Serves (n : Naming) (db : Database) (r d : Rule) (t : Table) : Prop where
  same : d = r ∨ d = r.reread
  validated : d.validate = .ok ()
  distinct : db.HasDistinctTables
  table : db.table? r.table = some t
  name : t.name = r.table
  isUser : Database.isUserTable n r.table = true
  wellFormed : t.isWellFormed = true
  full : t.IsFull
  resolves : ∃ catalog, d.Resolves catalog t.shape
  artifacts : ∃ plan, d.plan? t.shape = some plan ∧ ∀ kind, ∃ o,
    Store.findArtifact db kind r.table (some r.operation) = .ok o ∧
      o.map ArtifactRecord.rendered = (n.renderRule plan).find? fun y => y.kind == kind
  installed : ∀ a sql, Store.findArtifact db .readView r.table (some r.operation) = .ok (some a) →
    a.body = .view sql → db.Installed a.identifier sql
  closed : ∀ v ∈ db.views, v.query.params = 0

namespace Admin

variable {n : Naming} {ids : Nat → Uuid} {base user : Database} {clash : String → Prop}
  {w : Work} {c : Contents} {past : List State} {x : State}

lemma not_mem_tableNames_of_isUserTable {name : String}
    (h : Database.isUserTable n name = true) : name ∉ tableNames := by
  unfold Database.isUserTable at h
  simp only [Bool.and_eq_true, Bool.not_eq_true'] at h
  simpa using h.1.2

lemma Sound.exists_table {name : String} {shape : TableShape}
    (h : Sound n ids base clash (fun _ => True) w c)
    (hbase : ∀ t ∈ base.tables, t.isWellFormed = true)
    (hshape : w.catalog.table? name = some shape) :
    ∃ t, w.db.table? name = some t ∧ t.name = name ∧ t.shape = shape ∧
      Database.isUserTable n name = true ∧ t.isWellFormed = true ∧ t.IsFull := by
  rw [Catalog.table?, h.defined.catalog.tables] at hshape
  obtain ⟨u, hu, huname, rfl, huser⟩ := exists_table_of_catalog hshape
  obtain ⟨t, ht, hschema⟩ := Database.exists_table_of_schema h.defined.tables hu
  have hname : t.name = name := (Database.name_of_schema hschema).trans huname
  have htable : w.db.table? name = some t := by
    rw [← hname, h.defined.stored.distinct.table?_eq ht]
  exact ⟨t, htable, hname, Table.shape_eq hschema, huser,
    (Table.isWellFormed_eq hschema).trans (hbase u hu),
    h.defined.full _ t htable (hname ▸ not_mem_tableNames_of_isUserTable huser)⟩

lemma Sound.columns_ne_nil {name : String} {t : Table}
    (h : Sound n ids base clash (fun _ => True) w c) (hcolumns : ∀ t ∈ base.tables, t.columns ≠ [])
    (ht : w.db.table? name = some t) : t.columns ≠ [] := by
  obtain ⟨u, hmem, hschema⟩ := Database.exists_table_of_schema h.defined.tables.symm
    (List.mem_of_find?_eq_some ht)
  have heq : u.schema.columns = t.schema.columns := congrArg Table.columns hschema
  change t.schema.columns ≠ []
  rw [← heq]
  exact hcolumns u hmem

lemma Sound.serves {b : RuleRecord} {d : Rule} {plan : CompiledRule}
    (h : Sound n ids base clash (fun _ => True) w c)
    (hbase : ∀ t ∈ base.tables, t.isWellFormed = true) (hb : b ∈ c.rules)
    (hd : d = b.body ∨ d = b.body.reread) (hcompile : w.catalog.compileRule d = .ok plan)
    (hserves : c.Serves b.id (n.renderRule plan)) :
    ∃ t, n.Serves w.db b.body d t ∧ d.Resolves w.catalog t.shape := by
  obtain ⟨hvalidated, shape, hshape, hresolves, hplan⟩ := Catalog.compileRule_eq_ok.mp hcompile
  have hdtable : d.table = b.body.table := by obtain rfl | rfl := hd <;> rfl
  rw [hdtable] at hshape
  obtain ⟨t, htable, hname, rfl, huser, hformed, hfull⟩ := h.exists_table hbase hshape
  refine ⟨t, {
    same := hd
    validated := hvalidated
    distinct := h.defined.stored.distinct
    table := htable
    name := hname
    isUser := huser
    wellFormed := hformed
    full := hfull
    resolves := ⟨_, hresolves⟩
    artifacts := ⟨plan, hplan, h.findArtifact_rule hb hd hcompile hserves⟩
    installed := fun a sql ha hsql => ?_
    closed := h.defined.closed }, hresolves⟩
  -- Only the view of a claim can be missing from the database.
  obtain ⟨o, ho, ⟨rfl, -⟩ | ⟨a', ha', ⟨hkind, -⟩, rfl⟩⟩ :=
    h.defined.stored.findArtifact_isOk .readView b.body.table (some b.body.operation)
  · cases ha.symm.trans ho
  · cases ha.symm.trans ho
    refine (h.registered.views a ha' sql hsql).resolve_right fun hclaim => ?_
    cases hkind.symm.trans hclaim.1

lemma Sound.exists_serves {b : RuleRecord} (h : Sound n ids base clash (fun _ => True) w c)
    (hbase : ∀ t ∈ base.tables, t.isWellFormed = true) (hb : b ∈ c.rules) :
    ∃ d t, n.Serves w.db b.body d t ∧ d.Resolves w.catalog t.shape := by
  obtain ⟨_, ⟨d, plan, hd, hcompile, rfl⟩, hserves⟩ :=
    h.registered.served (.rule b) hb trivial
  exact ⟨d, h.serves hbase hb hd hcompile hserves⟩

/-- In every state of a run each rule in force is in service. -/
lemma Reached.exists_serves {r : Rule} (h : Reached n ids user past x) (hu : user.IsUnmanaged)
    (hids : Set.InjOn ids (Set.Iio x.issued)) (hr : r ∈ x.policy.rules) :
    ∃ d t, n.Serves x.db r d t := by
  obtain ⟨catalog, c, hpolicy, hsound⟩ := h.exists_contents hu hids
  rw [← hpolicy] at hr
  obtain ⟨b, hb, rfl⟩ := List.mem_map.mp hr
  obtain ⟨d, t, hserves, -⟩ := hsound.exists_serves hu.wellFormed_managed hb
  exact ⟨d, t, hserves⟩

/-- A rule that was just defined is in service as it was given. -/
lemma Reached.serves_defined {s : Setting} {r : Rule} (h : Reached s.naming s.ids user past x)
    (hu : user.IsUnmanaged) (hnow : s.now.IsRegular)
    (hids : Set.InjOn s.ids (Set.Iio ((Call.defineRule r).perform s false x).issued))
    (hissued : x.issued < ((Call.defineRule r).perform s false x).issued) :
    ∃ t, s.naming.Serves ((Call.defineRule r).perform s false x).db r r t := by
  obtain ⟨_, c, -, hsound⟩ := h.exists_contents hu (hids.mono (Set.Iio_subset_Iio hissued.le))
  unfold Call.perform at hids hissued ⊢
  split at hissued
  next heq =>
    simp only [heq] at hids ⊢
    obtain ⟨catalog, w, hload, hsteps, rfl, rfl⟩ := transaction_eq_ok heq
    obtain ⟨_, hsteps⟩ := settled_eq_ok hsteps
    obtain ⟨record, c₁, rfl, -, -, hsound', plan, hplan, hserves⟩ :=
      (hsound.reload hload).defineRule hnow hids hsteps
    obtain ⟨t, hserves, -⟩ := hsound'.serves hu.wellFormed_managed (b := record)
      List.mem_cons_self (.inl rfl) hplan hserves
    exact ⟨t, hserves⟩
  next => exact absurd hissued (Nat.lt_irrefl _)

end Admin

namespace Naming.Serves

variable {n : Naming} {q : Request} {db : Database} {r d : Rule} {t : Table}

lemma operation_eq (h : n.Serves db r d t) : d.operation = r.operation := by
  obtain rfl | rfl := h.same <;> rfl

lemma projection_eq (h : n.Serves db r d t) : d.projection = r.projection := by
  obtain rfl | rfl := h.same <;> rfl

lemma artifact_eq (h : n.Serves db r d t) (hready : q.ready = true) (hq : q.table = r.table) :
    ∃ plan, d.plan? t.shape = some plan ∧ ∀ kind, ∃ o,
      q.artifact db kind r.operation = .ok o ∧
        Store.findArtifact db kind r.table (some r.operation) = .ok o ∧
        o.map ArtifactRecord.rendered = (n.renderRule plan).find? fun y => y.kind == kind := by
  obtain ⟨plan, hplan, hfind⟩ := h.artifacts
  refine ⟨plan, hplan, fun kind => ?_⟩
  obtain ⟨o, ho, hrendered⟩ := hfind kind
  refine ⟨o, ?_, ho, hrendered⟩
  rw [Request.artifact, if_pos hready, hq, ho]
  rfl

lemma canShow (h : n.Serves db r d t) (hcolumns : t.columns ≠ []) : t.CanShow d.projection := by
  obtain ⟨catalog, hresolves⟩ := h.resolves
  exact Rule.canShow h.validated hresolves h.wellFormed hcolumns

lemma exists_readView (h : n.Serves db r d t) (hready : q.ready = true)
    (hq : q.table = r.table) (hread : r.operation = .read) :
    ∃ record, q.artifact db .readView .read = .ok (some record) ∧
      record.identifier = n.readView t.name ∧
      db.Installed record.identifier
        (n.readViewSql ⟨t.name, d.projection, d.filter .always⟩) := by
  obtain ⟨plan, hplan, hfind⟩ := h.artifact_eq hready hq
  rw [Rule.plan?, h.operation_eq, hread] at hplan
  cases hplan
  obtain ⟨o, ho, hstored, hrendered⟩ := hfind .readView
  rw [hread] at ho
  rw [renderRule.eq_def, List.find?_cons_of_pos (by rfl)] at hrendered
  obtain ⟨record, rfl, hrecord⟩ := Option.map_eq_some_iff.mp hrendered
  have hidentifier : record.identifier = n.readView t.name := congrArg Rendered.identifier hrecord
  have hbody : record.body = .view (n.readViewSql ⟨t.name, d.projection, d.filter .always⟩) :=
    congrArg Rendered.body hrecord
  exact ⟨record, ho, hidentifier, h.installed record _ hstored hbody⟩

lemma servesRead (h : n.Serves db r d t) (hcolumns : t.columns ≠ []) (hready : q.ready = true)
    (hq : q.table = r.table) (hread : r.operation = .read) : n.ServesRead q db d t where
  isRead := h.operation_eq.trans hread
  finite := Rule.filter_isFinite h.validated trivial
  table := hq ▸ h.table
  name := h.name.trans hq.symm
  distinct := (h.canShow hcolumns).showsDistinct
  shown := (h.canShow hcolumns).project?_isSome
  found := by
    obtain ⟨record, hrecord, hidentifier, -⟩ := h.exists_readView hready hq hread
    exact ⟨record, hrecord, hidentifier⟩
  installed := by
    obtain ⟨record, -, hidentifier, hinstalled⟩ := h.exists_readView hready hq hread
    exact hidentifier ▸ hinstalled
  closed := h.closed

/-- What a fetch finds is the accessor of the rule, if it has one. -/
lemma accessor_cases (h : n.Serves db r d t) (hready : q.ready = true) (hq : q.table = r.table)
    (hread : r.operation = .read) :
    (∃ f, d.accessor t.shape = .error f ∧ q.artifact db .readAccessor .read = .ok none) ∨
      ∃ a record, d.accessor t.shape = .ok a ∧
        q.artifact db .readAccessor .read = .ok (some record) ∧
        record.body = n.renderAccessor a := by
  obtain ⟨plan, hplan, hfind⟩ := h.artifact_eq hready hq
  rw [Rule.plan?, h.operation_eq, hread] at hplan
  cases hplan
  obtain ⟨o, ho, -, hrendered⟩ := hfind .readAccessor
  rw [hread] at ho
  rw [renderRule.eq_def, List.find?_cons_of_neg (by simp)] at hrendered
  cases haccessor : d.accessor t.shape with
  | error f =>
    rw [haccessor, List.find?_nil, Option.map_eq_none_iff] at hrendered
    subst hrendered
    exact .inl ⟨f, rfl, ho⟩
  | ok a =>
    rw [haccessor, List.find?_cons_of_pos (by rfl)] at hrendered
    obtain ⟨record, rfl, hrecord⟩ := Option.map_eq_some_iff.mp hrendered
    exact .inr ⟨a, record, rfl, ho, congrArg Rendered.body hrecord⟩

lemma servesFetch {a : Accessor} (h : n.Serves db r d t) (hcolumns : t.columns ≠ [])
    (hready : q.ready = true) (hq : q.table = r.table) (hread : r.operation = .read)
    (ha : d.accessor t.shape = .ok a) : n.ServesFetch q db d t a where
  toServesRead := h.servesRead hcolumns hready hq hread
  accessor := ha
  body := fun record hrecord => by
    obtain ⟨f, hf, -⟩ | ⟨a', record', ha', hrecord', hbody⟩ := h.accessor_cases hready hq hread
    · cases ha.symm.trans hf
    · cases ha.symm.trans ha'
      cases hrecord.symm.trans hrecord'
      exact hbody

lemma exists_guard (h : n.Serves db r d t) (hready : q.ready = true) (hq : q.table = r.table)
    (hwrite : r.operation ≠ .read) :
    ∃ g record, d.plan? t.shape = some (.write g) ∧
      q.artifact db .writeGuard r.operation = .ok (some record) ∧
      record.body = n.renderGuard g := by
  obtain ⟨plan, hplan, hfind⟩ := h.artifact_eq hready hq
  obtain ⟨o, ho, -, hrendered⟩ := hfind .writeGuard
  have hguard : ∃ g, plan = .write g := by
    unfold Rule.plan? at hplan
    rw [h.operation_eq] at hplan
    cases hop : r.operation with
    | read => exact absurd hop hwrite
    | create =>
      rw [hop] at hplan
      exact ⟨_, (Option.some.inj hplan).symm⟩
    | update | delete =>
      rw [hop] at hplan
      obtain ⟨key, -, rfl⟩ := Option.map_eq_some_iff.mp hplan
      exact ⟨_, rfl⟩
  obtain ⟨g, rfl⟩ := hguard
  rw [renderRule, List.find?_cons_of_pos (by rfl)] at hrendered
  obtain ⟨record, rfl, hrecord⟩ := Option.map_eq_some_iff.mp hrendered
  exact ⟨g, record, hplan, ho, congrArg Rendered.body hrecord⟩

lemma createGuard_eq (h : n.Serves db r d t) (hready : q.ready = true) (hq : q.table = r.table)
    (hcreate : r.operation = .create) :
    q.createGuard db = .ok (t.shape.columns, d.guardConditions.map fun c =>
      ⟨c.label, conditionReason c, n.fragment (Sql.quoteName t.name) c.fragment⟩) := by
  obtain ⟨g, record, hplan, hrecord, hbody⟩ :=
    h.exists_guard hready hq (by rw [hcreate]; exact Operation.noConfusion)
  rw [Rule.plan?_create (h.operation_eq.trans hcreate)] at hplan
  cases hplan
  rw [hcreate] at hrecord
  exact Request.createGuard_of_artifact hrecord hbody

lemma guardsCreate (h : n.Serves db r d t) (hready : q.ready = true) (hq : q.table = r.table)
    (hcreate : r.operation = .create) : n.GuardsCreate q db d t where
  isCreate := h.operation_eq.trans hcreate
  finite := fun p hp => Predicate.lowered_isFinite ((Rule.validate_eq_ok h.validated).2 p hp)
  table := hq ▸ h.table
  name := h.name.trans hq.symm
  only := fun u hu hname => h.distinct.eq_of_sameName hu (List.mem_of_find?_eq_some h.table)
    (by rw [hname, Text.sameName_self])
  full := h.full
  body := fun record hrecord => by
    obtain ⟨record', hrecord', hbody⟩ :=
      Request.createGuard_eq_ok (h.createGuard_eq hready hq hcreate)
    cases hrecord.symm.trans hrecord'
    exact hbody
  closed := h.closed

end Naming.Serves

end RowPolicy
