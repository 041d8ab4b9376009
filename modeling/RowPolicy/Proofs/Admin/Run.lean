import RowPolicy.Proofs.Admin.Calls

/-!
# Runs of administration

A run starts at a database without a store. Each call succeeds as a whole or changes nothing, and
rows of the protected tables may be written between the calls. In every state of a run the store
holds the definitions in force and the registry is sound.
-/

namespace RowPolicy

open Store

/-! ### Databases without a store -/

/-- A database that the store can be added to. -/
@[mk_iff]
structure Database.IsUnmanaged (db : Database) : Prop where
  distinct : db.HasDistinctTables
  wellFormed : ∀ t ∈ db.tables, t.isWellFormed = true
  full : ∀ t ∈ db.tables, t.IsFull
  closed : ∀ v ∈ db.views, v.query.params = 0
  free : ∀ name ∈ tableNames, db.hasObject name = false

instance (db : Database) : Decidable db.IsUnmanaged :=
  decidable_of_iff' _ (Database.isUnmanaged_iff db)

def Database.withTable (db : Database) (t : Table) : Database :=
  { db with tables := db.tables ++ [t] }

def Database.managed (db : Database) : Database := { db with tables := db.tables ++ Store.tables }

lemma Uuid.injOn_nth {k : Nat} (h : k ≤ 2 ^ 60) : Set.InjOn Uuid.nth (Set.Iio k) := by
  intro i hi j hj heq
  rw [Set.mem_Iio] at hi hj
  have hvalues := congrArg (fun u => u.value.toNat) heq
  simp only [nth, BitVec.toNat_ofNat, show Nat.pow 2 60 = 1152921504606846976 by decide] at hvalues
  omega

namespace Admin

/-! ### Calls -/

inductive Call where
  | defineRule (r : Rule)
  | defineClaim (k : Claim)
  | dropRule (k : RuleKey)
  | dropRules (table : String)
  | dropClaim (name : String)
  | rebuild
  | applyDocument (d : Document)

/-- What a step leaves behind, without the report on it. -/
def settled {α : Type} (r : Result (Work × α)) : Result (Work × Unit) := r.map fun x => (x.1, ())

def Call.steps (s : Setting) (call : Call) (w : Work) : Result (Work × Unit) :=
  match call with
  | .defineRule r => settled (Admin.defineRule s w r)
  | .defineClaim k => settled (Admin.defineClaim s w k)
  | .dropRule k => settled (Admin.dropRule w k)
  | .dropRules table => settled (Admin.dropRules w table)
  | .dropClaim name => settled (Admin.dropClaim w name)
  | .rebuild => settled (Admin.rebuild s w)
  | .applyDocument d => settled (Admin.applyDocument s w d)

/-- The definitions in force after a call that succeeds. -/
def Call.policy (p : Policy) : Call → Policy
  | .defineRule r => p.setRule r
  | .defineClaim k => p.setClaim k
  | .dropRule k => { p with rules := p.rules.filter fun b => b.key ≠ k }
  | .dropRules table => { p with rules := p.rules.filter fun b => b.table ≠ table }
  | .dropClaim name => { p with claims := p.claims.filter fun b => b.name ≠ name }
  | .rebuild => p
  | .applyDocument d => d.orderedRules.foldl Policy.setRule (d.claims.foldl Policy.setClaim p)

/-- The database, the number of identifiers given out and the definitions in force. -/
structure State where
  db : Database
  issued : Nat := 0
  policy : Policy := {}

/-- A call: it succeeds as a whole or changes nothing. -/
def Call.perform (s : Setting) (busy : Bool) (x : State) (call : Call) : State :=
  match transaction s.naming busy x.db x.issued (call.steps s) with
  | .ok (db, issued, _) => ⟨db, issued, call.policy x.policy⟩
  | .error _ => x

/-- Rows of tables beside the store are written. -/
structure RowsWritten (db db' : Database) : Prop where
  schema : db'.schema = db.schema
  store : ∀ name ∈ tableNames, db'.table? name = db.table? name
  full : ∀ t ∈ db'.tables, t.name ∉ tableNames → t.IsFull

/-- The states of runs, with the states before them, the last one first. -/
inductive Reached (n : Naming) (ids : Nat → Uuid) (user : Database) : List State → State → Prop
  | start : Reached n ids user [] ⟨(Admin.start false user).1, 0, {}⟩
  | call {past : List State} {x : State} (h : Reached n ids user past x) {now : Instant}
      (hnow : now.IsRegular) (busy : Bool) (call : Call) :
      Reached n ids user (x :: past) (call.perform ⟨n, ids, now⟩ busy x)
  | write {past : List State} {x : State} (h : Reached n ids user past x) {db : Database}
      (hwritten : RowsWritten x.db db) : Reached n ids user (x :: past) { x with db := db }

/-- Claims with a name that differs from a given one in case only were stored at some time. -/
def Clashed (states : List State) (name : String) : Prop :=
  ∃ x ∈ states, ∃ ks, Store.claims x.db = .ok ks ∧
    ∃ k ∈ ks, k.body.name ≠ name ∧ Text.sameName k.body.name name = true

variable {n : Naming} {ids : Nat → Uuid} {base user : Database} {clash clash' : String → Prop}
  {past : List State} {x : State} {w w' : Work} {c : Contents} {p : Policy} {s : Setting}
  {call : Call} {busy : Bool} {db : Database} {fresh : Uuid → Prop}

/-! ### Steps of a run -/

lemma settled_eq_ok {α : Type} {r : Result (Work × α)} (h : settled r = .ok (w', ())) :
    ∃ a, r = .ok (w', a) := by
  obtain ⟨⟨w₁, a⟩, hr, hw⟩ := map_eq_ok.mp h
  cases hw
  exact ⟨a, hr⟩

lemma Stands.steps (h : Stands s.naming s.ids base clash p w) (hnow : s.now.IsRegular)
    (hclash : ∀ c, Contains w.db c → ∀ name, c.HasTwin name → clash name)
    (hsteps : call.steps s w = .ok (w', ())) :
    Stands s.naming s.ids base clash (call.policy p) w' := by
  cases call with
  | defineRule r =>
    obtain ⟨_, hsteps⟩ := settled_eq_ok hsteps
    exact h.defineRule hnow hsteps
  | defineClaim k =>
    obtain ⟨_, hsteps⟩ := settled_eq_ok hsteps
    exact h.defineClaim hnow hsteps
  | dropRule k =>
    obtain ⟨_, hsteps⟩ := settled_eq_ok hsteps
    exact h.dropRule hsteps
  | dropRules table =>
    obtain ⟨_, hsteps⟩ := settled_eq_ok hsteps
    exact h.dropRules hsteps
  | dropClaim name =>
    obtain ⟨_, hsteps⟩ := settled_eq_ok hsteps
    exact h.dropClaim hclash hsteps
  | rebuild =>
    obtain ⟨_, hsteps⟩ := settled_eq_ok hsteps
    exact h.rebuild hnow hsteps
  | applyDocument d =>
    obtain ⟨_, hsteps⟩ := settled_eq_ok hsteps
    exact h.applyDocument hnow hsteps

lemma transaction_eq_ok {α : Type} {db' : Database} {issued issued' : Nat}
    {steps : Work → Result (Work × α)} {a : α}
    (h : transaction n busy db issued steps = .ok (db', issued', a)) :
    ∃ catalog w, loadCatalog n db = .ok catalog ∧ steps ⟨db, catalog, issued⟩ = .ok (w, a) ∧
      w.db = db' ∧ w.issued = issued' := by
  unfold transaction at h
  cases busy with
  | true => cases h
  | false =>
    obtain ⟨catalog, hcatalog, h⟩ := bind_eq_ok.mp h
    obtain ⟨⟨w, b⟩, hsteps, h⟩ := bind_eq_ok.mp h
    cases h
    exact ⟨catalog, w, hcatalog, hsteps, rfl, rfl⟩

lemma Sound.reload {catalog : Catalog} (h : Sound n ids base clash fresh w c)
    (hload : loadCatalog n w.db = .ok catalog) :
    Sound n ids base clash fresh { w with catalog := catalog } c := by
  obtain ⟨hagrees, -⟩ := loadCatalog_eq_ok h.defined.stored hload
  rw [catalog_congr n h.defined.tables] at hagrees
  have htables : catalog.tables = w.catalog.tables :=
    hagrees.tables.trans h.defined.catalog.tables.symm
  refine ⟨{ h.defined with catalog := hagrees }, h.registered.owned, fun y hy hfresh => ?_,
    h.registered.views⟩
  obtain ⟨ys, hys, hserves⟩ := h.registered.served y hy hfresh
  exact ⟨ys, hys.congr htables fun _ _ name _ => h.defined.catalog.claim?_eq hagrees name, hserves⟩

lemma Sound.mono_clash (h : Sound n ids base clash fresh w c)
    (hclash : ∀ name, clash name → clash' name) : Sound n ids base clash' fresh w c :=
  ⟨h.defined, h.registered.owned, h.registered.served, fun a ha sql hsql =>
    (h.registered.views a ha sql hsql).imp_right fun hc => ⟨hc.1, hc.2.imp_left (hclash _)⟩⟩

lemma RowsWritten.contains {db' : Database} (h : RowsWritten db db') (hc : Contains db c) :
    Contains db' c := by
  obtain ⟨hdistinct, hrules, hclaims, hartifacts⟩ := hc
  exact ⟨hdistinct.congr (by rw [h.schema]),
    ⟨hrules.holds.congr (h.store _ (by decide)), hrules.keys, hrules.all⟩,
    ⟨hclaims.holds.congr (h.store _ (by decide)), hclaims.keys, hclaims.all⟩,
    ⟨hartifacts.holds.congr (h.store _ (by decide)), hartifacts.keys, hartifacts.all⟩⟩

/-- Writing rows of other tables leaves the definitions and the registry. -/
lemma Sound.rowsWritten (h : Sound n ids base clash fresh w c) (hwritten : RowsWritten w.db db) :
    Sound n ids base clash fresh { w with db := db } c := by
  have htables : db.schema.tables = w.db.schema.tables := by rw [hwritten.schema]
  have hviews : db.views = w.db.views :=
    (congrArg Database.views hwritten.schema : db.schema.views = _)
  refine ⟨{ h.defined with
      stored := hwritten.contains h.defined.stored
      tables := htables.trans h.defined.tables
      closed := hviews ▸ h.defined.closed
      unreserved := hviews ▸ h.defined.unreserved
      full := fun name t ht => hwritten.full t (List.mem_of_find?_eq_some ht) },
    h.registered.owned, h.registered.served, fun a ha sql hsql => ?_⟩
  have hview : db.view? a.identifier = w.db.view? a.identifier := by
    rw [Database.view?, Database.view?, hviews]
  exact (h.registered.views a ha sql hsql).imp_left fun hinstalled =>
    hinstalled.congr htables hview

/-! ### The start of a run -/

lemma hasObject_withTable (db : Database) (t : Table) (name : String) :
    (db.withTable t).hasObject name = (db.hasObject name || Text.sameName t.name name) := by
  unfold Database.hasObject Database.withTable Database.table? Database.view?
  rw [List.find?_append, Option.isSome_or]
  cases hname : Text.sameName t.name name <;> simp [hname]

lemma createAbsent_eq_ok {t : Table} (hfree : db.hasObject t.name = false)
    (hreserved : Database.isReserved t.name = false) (ht : t.isWellFormed = true) :
    createAbsent db t = .ok (db.withTable t) := by
  simp [createAbsent, Database.createTable, hfree, hreserved, ht, Database.withTable]

lemma start_eq (h : user.IsUnmanaged) : (Admin.start false user).1 = user.managed := by
  have hfree := h.free
  simp only [tableNames, Store.tables, List.map_cons, List.map_nil, List.forall_mem_cons] at hfree
  obtain ⟨hrules, hclaims, hartifacts, -⟩ := hfree
  have hclaims' : (user.withTable ruleTable).hasObject claimTable.name = false := by
    rw [hasObject_withTable, hclaims]
    decide
  have hartifacts' :
      ((user.withTable ruleTable).withTable claimTable).hasObject artifactTable.name = false := by
    rw [hasObject_withTable, hasObject_withTable, hartifacts]
    decide
  have hcreated : Store.tables.foldlM createAbsent user = .ok user.managed := by
    rw [Store.tables, List.foldlM_cons, createAbsent_eq_ok hrules (by decide) (by decide), ok_bind,
      List.foldlM_cons, createAbsent_eq_ok hclaims' (by decide) (by decide), ok_bind,
      List.foldlM_cons, createAbsent_eq_ok hartifacts' (by decide) (by decide), ok_bind,
      List.foldlM_nil]
    simp [Database.withTable, Database.managed, Store.tables, pure, Except.pure]
  rw [Admin.start, Bool.false_and, if_neg Bool.false_ne_true, migrate, hcreated]

lemma table?_managed {t : Table} (h : user.IsUnmanaged) (ht : t ∈ Store.tables) :
    user.managed.table? t.name = some t := by
  have hfree := h.free t.name (List.mem_map_of_mem ht)
  rw [Database.hasObject, Bool.or_eq_false_iff, Option.isSome_eq_false_iff,
    Option.isNone_iff_eq_none] at hfree
  have hstore : ∀ t ∈ Store.tables,
      Store.tables.find? (fun u => Text.sameName u.name t.name) = some t := by decide
  rw [Database.table?, Database.managed, List.find?_append, ← Database.table?, hfree.1,
    Option.none_or, hstore t ht]

lemma managed_distinct (h : user.IsUnmanaged) : user.managed.HasDistinctTables := by
  refine List.pairwise_append.mpr ⟨h.distinct, by decide, fun t ht u hu => ?_⟩
  have hfree := h.free u.name (List.mem_map_of_mem hu)
  rw [Database.hasObject, Bool.or_eq_false_iff, Option.isSome_eq_false_iff,
    Option.isNone_iff_eq_none] at hfree
  exact Bool.eq_false_iff.mpr (List.find?_eq_none.mp hfree.1 t ht)

lemma contains_managed (h : user.IsUnmanaged) : Contains user.managed {} where
  distinct := managed_distinct h
  rules := ⟨⟨_, table?_managed (t := ruleTable) h (by decide), rfl, .refl _⟩, by simp, by simp⟩
  claims := ⟨⟨_, table?_managed (t := claimTable) h (by decide), rfl, .refl _⟩, by simp, by simp⟩
  artifacts :=
    ⟨⟨_, table?_managed (t := artifactTable) h (by decide), rfl, .refl _⟩, by simp, by simp⟩

lemma stands_start (h : user.IsUnmanaged) :
    Stands n ids user.managed clash {} ⟨user.managed, user.managed.catalog n, 0⟩ := by
  intro _
  obtain ⟨hnoclaims, hnorules⟩ := catalog_definitions n user.managed
  have hnone : ∀ y, ¬ Contents.Defines {} y := fun y => by
    cases y <;> simp [Contents.Defines]
  refine ⟨{}, rfl, ⟨?_, by simp, fun y hy => absurd hy (hnone y), by simp⟩⟩
  refine {
    stored := contains_managed h
    tables := rfl
    closed := h.closed
    unreserved := fun _ hv => .inl hv
    ids_injective := fun y _ hy => absurd hy (hnone y)
    issued := fun y hy => absurd hy (hnone y)
    catalog := ⟨rfl, by simp, by simp [Catalog.claim?, Keyed.get?, hnoclaims], by simp⟩
    targets := by simp
    full := fun name t ht hname => ?_ }
  obtain ht | ht := List.mem_append.mp (List.mem_of_find?_eq_some ht)
  · exact h.full t ht
  · exact absurd (List.mem_map_of_mem ht) hname

/-! ### Runs -/

lemma Clashed.mono {states : List State} {name : String} (h : Clashed states name) (x : State) :
    Clashed (x :: states) name := by
  obtain ⟨y, hy, hclash⟩ := h
  exact ⟨y, List.mem_cons_of_mem _ hy, hclash⟩

/-- Claims of a state whose names differ in case only clash from then on. -/
lemma clashed_of_hasTwin {states : List State} {name : String} (hx : x ∈ states)
    (hc : Contains x.db c) (htwin : c.HasTwin name) : Clashed states name := by
  obtain ⟨ks, hks, hperm⟩ := hc.claims_isOk
  obtain ⟨k, hk, htwin⟩ := htwin
  exact ⟨x, hx, ks, hks, k, hperm.mem_iff.mpr hk, htwin⟩

lemma Stands.mono_clash (h : Stands n ids base clash p w)
    (hclash : ∀ name, clash name → clash' name) : Stands n ids base clash' p w := fun hids => by
  obtain ⟨c, hpolicy, hc⟩ := h hids
  exact ⟨c, hpolicy, hc.mono_clash hclash⟩

lemma Stands.perform {catalog : Catalog}
    (h : Stands s.naming s.ids base (Clashed past) x.policy ⟨x.db, catalog, x.issued⟩)
    (hnow : s.now.IsRegular) :
    ∃ catalog', Stands s.naming s.ids base (Clashed (x :: past)) (call.perform s busy x).policy
      ⟨(call.perform s busy x).db, catalog', (call.perform s busy x).issued⟩ := by
  have hmono := h.mono_clash fun name hname => hname.mono x
  unfold Call.perform
  split
  next db issued u hcall =>
    obtain ⟨catalog₁, w, hload, hsteps, rfl, rfl⟩ := transaction_eq_ok hcall
    have hreload : Stands s.naming s.ids base (Clashed (x :: past)) x.policy
        ⟨x.db, catalog₁, x.issued⟩ := fun hids => by
      obtain ⟨c, hpolicy, hc⟩ := hmono hids
      exact ⟨c, hpolicy, hc.reload hload⟩
    exact ⟨w.catalog, hreload.steps hnow
      (fun c hc name htwin => clashed_of_hasTwin List.mem_cons_self hc htwin) hsteps⟩
  next => exact ⟨catalog, hmono⟩

lemma Call.perform_policy (h : (call.perform s busy x).issued ≠ x.issued) :
    (call.perform s busy x).policy = call.policy x.policy := by
  unfold Call.perform at h ⊢
  split
  next => rfl
  next herror =>
    rw [herror] at h
    exact absurd rfl h

/-- In every state of a run the store holds the definitions in force and the registry is sound. -/
lemma Reached.stands (h : Reached n ids user past x) (hu : user.IsUnmanaged) :
    ∃ catalog, Stands n ids user.managed (Clashed past) x.policy ⟨x.db, catalog, x.issued⟩ := by
  induction h with
  | start =>
    rw [start_eq hu]
    exact ⟨_, stands_start hu⟩
  | call _ hnow busy call ih =>
    obtain ⟨catalog, hx⟩ := ih
    exact hx.perform hnow
  | @write past x _ db hwritten ih =>
    obtain ⟨catalog, hx⟩ := ih
    refine ⟨catalog, fun hids => ?_⟩
    obtain ⟨c, hpolicy, hc⟩ := hx hids
    exact ⟨c, hpolicy, (hc.rowsWritten hwritten).mono_clash fun name hname => hname.mono x⟩

lemma Reached.exists_contents (h : Reached n ids user past x) (hu : user.IsUnmanaged)
    (hids : Set.InjOn ids (Set.Iio x.issued)) :
    ∃ catalog c, policyOf c = x.policy ∧
      Sound n ids user.managed (Clashed past) (fun _ => True) ⟨x.db, catalog, x.issued⟩ c := by
  obtain ⟨catalog, hstands⟩ := h.stands hu
  exact ⟨catalog, hstands hids⟩

/-- The filtered view of a table is in the database as the registry says. -/
lemma Reached.installed_readView {as : List ArtifactRecord} {a : ArtifactRecord} {sql : String}
    (h : Reached n ids user past x) (hu : user.IsUnmanaged)
    (hids : Set.InjOn ids (Set.Iio x.issued)) (has : Store.artifacts x.db = .ok as) (ha : a ∈ as)
    (hkind : a.kind = .readView) (hsql : a.body = .view sql) :
    x.db.Installed a.identifier sql := by
  obtain ⟨catalog, c, -, hsound⟩ := h.exists_contents hu hids
  obtain ⟨as', has', hperm⟩ := hsound.defined.stored.artifacts_isOk
  cases has.symm.trans has'
  refine (hsound.registered.views a (hperm.mem_iff.mp ha) sql hsql).resolve_right fun hclaim => ?_
  cases hkind.symm.trans hclaim.1

end Admin

end RowPolicy
