import RowPolicy.Proofs.Admin.Calls
import RowPolicy.Proofs.Dependence
import RowPolicy.Proofs.Store.Stamps

/-!
# Definitions in step

The same definitions are made in two databases that are alike, at different times and with catalogs
that differ in how literals were read. Each step succeeds on both sides and leaves them alike, or it
fails on both sides with the same error.
-/

namespace RowPolicy

open Store

/-! ### Statements are bound by the schema -/

namespace Database

variable {db db' : Database} {hasPrincipal : Bool} {sql : String}

lemma writable_schema (db : Database) (name : String) :
    db.schema.writable name = (db.writable name).map Table.schema := by
  unfold writable
  rw [table?_schema]
  cases db.table? name <;> rfl

lemma hasObject_schema (db : Database) (name : String) :
    db.schema.hasObject name = db.hasObject name := by
  rw [hasObject, hasObject, table?_schema, view?_schema, Option.isSome_map]

lemma bindChanges_schema (b : Binder) (t : Table) (scope : Scope)
    (changes : List (String × Sql.Expr)) :
    bindChanges b t.schema scope changes = bindChanges b t scope changes := by
  induction changes with
  | nil => rfl
  | cons change changes ih =>
    rw [bindChanges, bindChanges, ih]
    rfl

lemma bindInsert_schema (db : Database) (table : String) (columns : Option (List String))
    (rows : Option Sql.Query) :
    db.schema.bindInsert hasPrincipal table columns rows =
      db.bindInsert hasPrincipal table columns rows := by
  rw [bindInsert, bindInsert, writable_schema, binder_schema]
  cases db.writable table <;> rfl

lemma dropView_schema (db : Database) (name : String) (ifPresent : Bool) :
    db.schema.dropView name ifPresent = (db.dropView name ifPresent).map schema := by
  unfold dropView
  rw [view?_schema, table?_schema, Option.isNone_map]
  split
  · rfl
  · split <;> rfl

/-- What a statement is bound to is a matter of the schema. -/
lemma bindStatement_schema (db : Database) (s : Sql.Statement) :
    db.schema.bindStatement hasPrincipal sql s = db.bindStatement hasPrincipal sql s := by
  cases s with
  | query q => rw [bindStatement, bindStatement, binder_schema]
  | insert table columns rows => rw [bindStatement, bindStatement, bindInsert_schema]
  | overwrite table columns rows => rw [bindStatement, bindStatement, bindInsert_schema]
  | update table changes filter =>
    rw [bindStatement, bindStatement, writable_schema, binder_schema]
    cases db.writable table with
    | error e => rfl
    | ok t =>
      change (do
        let changes ← bindChanges _ t.schema _ changes
        _) = _
      rw [bindChanges_schema]
      rfl
  | delete table filter =>
    rw [bindStatement, bindStatement, writable_schema, binder_schema]
    cases db.writable table <;> rfl
  | createView name ifAbsent q => rw [bindStatement, bindStatement, hasObject_schema]
  | createTable name ifAbsent => rw [bindStatement, bindStatement, hasObject_schema]
  | dropView name ifPresent =>
    rw [bindStatement, bindStatement, dropView_schema]
    cases db.dropView name ifPresent <;> rfl
  | dropTable name ifPresent =>
    rw [bindStatement, bindStatement, table?_schema, view?_schema, Option.isSome_map]
  | createIndex table =>
    rw [bindStatement, bindStatement, writable_schema]
    cases db.writable table <;> rfl
  | control => rfl

lemma prepareStatement_congr (h : db'.schema = db.schema) (s : Sql.Statement) :
    db'.prepareStatement hasPrincipal sql s = db.prepareStatement hasPrincipal sql s := by
  rw [prepareStatement.eq_def, prepareStatement.eq_def, ← bindStatement_schema db', h,
    bindStatement_schema]

lemma prepare_congr (h : db'.schema = db.schema) :
    db'.prepare hasPrincipal sql = db.prepare hasPrincipal sql := by
  rw [prepare, prepare]
  cases Sql.parse sql with
  | one s rest => exact prepareStatement_congr h s
  | none => rfl
  | error => rfl

end Database

/-- A statement that creates or drops a view. -/
def BoundStatement.IsOnViews : BoundStatement → Prop
  | .createView _ => True
  | .dropView _ _ => True
  | _ => False

namespace Database

variable {db : Database} {p : Prepared} {name sql : String}

lemma prepare_dropView (h : db.prepare true (Sql.dropView name) = .ok p) :
    p.statement.IsOnViews := by
  obtain ⟨_, bound, rfl, -, hbound, hp⟩ := prepare_parsesAs (Sql.parse_dropView name) h
  obtain ⟨_, -, hbound⟩ := bind_eq_ok.mp hbound
  cases hbound
  rw [hp]
  trivial

lemma prepare_createView (htext : CreatesView name sql) (h : db.prepare true sql = .ok p) :
    p.statement.IsOnViews := by
  obtain ⟨more, htext⟩ := htext
  obtain ⟨_, _, bound, ⟨q, rfl⟩, -, -, hbound, hp⟩ :=
    prepare_startsAs (Sql.parse_createView htext) h
  rw [bindStatement] at hbound
  simp only [Bool.false_eq_true, if_false] at hbound
  split_ifs at hbound
  cases hbound
  rw [hp]
  trivial

end Database

namespace Store.Alike

variable {db db' : Database} {env : Env} {name sql : String}

lemma withViews (h : Alike db db') (views : List View) :
    Alike { db with views := views } { db' with views := views } where
  distinct := h.distinct
  schema := by
    have htables : db'.tables.map Table.schema = db.tables.map Table.schema :=
      (congrArg Database.tables h.schema : db'.schema.tables = _)
    rw [Database.schema, Database.schema, htables]
  others := h.others
  rules := h.rules
  claims := h.claims
  artifacts := h.artifacts

lemma views_eq (h : Alike db db') : db'.views = db.views :=
  (congrArg Database.views h.schema : db'.schema.views = _)

lemma table?_isSome (h : Alike db db') (name : String) :
    (db'.table? name).isSome = (db.table? name).isSome := by
  rw [← Option.isSome_map (f := Table.schema), ← Database.table?_schema, h.schema,
    Database.table?_schema, Option.isSome_map]

lemma view?_eq (h : Alike db db') (name : String) : db'.view? name = db.view? name := by
  rw [Database.view?, Database.view?, h.views_eq]

lemma run (h : Alike db db') {s : BoundStatement} (hs : s.IsOnViews) :
    InStep (fun x y => Alike x.1 y.1) (db.run env s) (db'.run env s) := by
  cases s with
  | createView v =>
    refine InStep.bind (R := Alike) ?_ fun x y hxy => .ok hxy
    unfold Database.createView Database.hasObject
    rw [h.table?_isSome, h.view?_eq]
    split
    · exact .error _
    · rw [h.views_eq]
      exact .ok (h.withViews _)
  | dropView name ifPresent =>
    refine InStep.bind (R := Alike) ?_ fun x y hxy => .ok hxy
    unfold Database.dropView
    rw [h.view?_eq, ← Option.not_isSome, ← Option.not_isSome, h.table?_isSome]
    split
    · rw [h.views_eq]
      exact .ok (h.withViews _)
    · split
      · exact .ok h
      · exact .error _
  | query _ _ | insert _ _ _ | update _ _ _ | delete _ _ | dropTable _ | nothing | inert =>
    exact absurd hs id

lemma execute (h : Alike db db')
    (hs : ∀ p, db.prepare true sql = .ok p → p.statement.IsOnViews) :
    InStep (fun x y => Alike x.1 y.1) (db.execute env sql) (db'.execute env sql) := by
  unfold Database.execute
  rw [Database.prepare_congr h.schema]
  cases hp : db.prepare true sql with
  | error e => exact .error e
  | ok p =>
    refine (InStep.refl (R := Eq) (fun _ => rfl) (Database.checkParams p env)).bind fun _ _ _ => ?_
    exact h.run (hs p hp)

end Store.Alike

namespace Admin

variable {db db' : Database} {a a' : ArtifactRecord} {as as' : List ArtifactRecord} {n : Naming}
  {ids : Nat → Uuid} {now now' : Instant} {w w' : Work} {identifier sql : String}

/-! ### Installation in step -/

lemma installView_inStep (h : Alike db db') (htext : Database.CreatesView identifier sql) :
    InStep Alike (installView db identifier sql) (installView db' identifier sql) := by
  unfold installView
  refine ((h.execute fun p => Database.prepare_dropView).mapError _).bind fun x y hdropped => ?_
  refine ((hdropped.execute fun p => Database.prepare_createView htext).mapError _).bind ?_
  rintro ⟨x, _⟩ ⟨y, _⟩ hcreated
  dsimp only
  rw [Database.prepare_congr hcreated.schema]
  exact (InStep.refl (R := Eq) (fun _ => rfl) _).bind fun _ _ _ => .ok hcreated

lemma remove_inStep (h : Alike db db') (ha : a.Same a') :
    InStep Alike (remove db a) (remove db' a') := by
  obtain ⟨⟨created, rfl⟩, -⟩ := ha
  unfold remove
  dsimp only
  have hdelete : ∀ {x y : Database}, Alike x y →
      InStep Alike (ofStore (Store.deleteArtifact x a.identifier) >>= fun p => pure p.1)
        (ofStore (Store.deleteArtifact y a.identifier) >>= fun p => pure p.1) := fun hxy =>
    ((hxy.deleteArtifact a.identifier).mapError _).bind fun x y hxy => .ok hxy.1
  split
  · refine (((h.execute fun p => Database.prepare_dropView).mapError _).mapError _).bind
      fun x y hdropped => ?_
    exact hdelete hdropped
  · exact hdelete h

lemma teardown_inStep (h : Alike db db') (owner : Uuid) :
    InStep (fun x y => Alike x.1 y.1) (teardown db owner) (teardown db' owner) := by
  unfold teardown removeAll
  refine ((h.artifactsOf owner).mapError _).bind fun as as' has => ?_
  exact (InStep.foldlM has (fun x y a b hxy hab => remove_inStep hxy hab) h).bind
    fun x y hxy => .ok hxy

lemma install_inStep (h : Alike db db') (ha : a.Same a') (hcreated : a.IsCreated) :
    InStep Alike (install db a) (install db' a') := by
  have hsaved : ∀ x y : Database, Alike x y →
      InStep Alike (ofStore (Store.saveArtifact x a)) (ofStore (Store.saveArtifact y a')) :=
    fun x y hxy => (hxy.saveArtifact ha).mapError _
  unfold install
  rw [← ha.body_eq, ← ha.identifier_eq]
  cases hbody : a.body with
  | view sql => exact (installView_inStep h (hcreated sql hbody).2).bind hsaved
  | accessor _ _ _ | createGuard _ _ | restrictGuard _ _ _ => exact hsaved db db' h

lemma replace_inStep (h : Alike db db') (owner : Uuid)
    (has : List.Forall₂ (fun a b : ArtifactRecord => a.Same b ∧ a.IsCreated) as as') :
    InStep (fun x y => Alike x.1 y.1) (Admin.replace db owner as)
      (Admin.replace db' owner as') := by
  unfold Admin.replace
  refine (teardown_inStep h owner).bind fun x y hxy => ?_
  exact (InStep.foldlM has (fun x y a b hxy hab => install_inStep hxy hab.1 hab.2) hxy).bind
    fun x y hxy => .ok hxy

lemma forall₂_ofRendered (owner : Uuid) (hnow : now.IsRegular) (hnow' : now'.IsRegular)
    {xs : List Rendered} (hxs : ∀ x ∈ xs, x.IsNamed n) :
    List.Forall₂ (fun a b : ArtifactRecord => a.Same b ∧ a.IsCreated)
      (xs.map (ArtifactRecord.ofRendered owner now))
      (xs.map (ArtifactRecord.ofRendered owner now')) := by
  rw [List.forall₂_map_left_iff, List.forall₂_map_right_iff]
  exact List.forall₂_same.mpr fun x hx => ⟨⟨⟨now', rfl⟩, hnow, hnow'⟩, (hxs x hx).created⟩

lemma checkClaimQuery_congr (h : db'.schema = db.schema) :
    checkClaimQuery db' identifier sql = checkClaimQuery db identifier sql := by
  unfold checkClaimQuery
  simp only [Database.prepareStatement_congr h]

/-! ### Catalogs alike -/

end Admin

/-- What other definitions see of a rule: its key and the claims that it refers to. -/
def Rule.outline (r : Rule) : RuleKey × List String :=
  (r.key, (r.predicate.map Predicate.claimList).getD [])

@[simp] lemma Rule.outline_reread (r : Rule) : r.reread.outline = r.outline := by
  cases hp : r.predicate <;> simp [outline, Rule.reread, Rule.key, hp]

lemma Rule.references_eq (r : Rule) (claim : String) :
    r.references claim = r.outline.2.contains claim := by
  cases hp : r.predicate <;> simp [references, outline, hp]

lemma Keyed.map_insert {α β κ : Type} [BEq κ] {lt : κ → κ → Bool} {key : α → κ} {key' : β → κ}
    {f : α → β} (hkey : ∀ a, key' (f a) = key a) (a : α) (as : List α) :
    (Keyed.insert lt key a as).map f = Keyed.insert lt key' (f a) (as.map f) := by
  induction as with
  | nil => rfl
  | cons b bs ih =>
    rw [List.map_cons, insert, insert, hkey, hkey]
    split_ifs
    · rfl
    · rfl
    · rw [List.map_cons, ih]

lemma Catalog.outlines_insertRule (c : Catalog) (r : Rule) :
    (c.insertRule r).rules.map Rule.outline =
      Keyed.insert RuleKey.lt Prod.fst r.outline (c.rules.map Rule.outline) := by
  have hkey : ∀ r : Rule, r.outline.1 = r.key := fun _ => rfl
  exact Keyed.map_insert hkey r c.rules

/-- Catalogs with the same tables and claims, whose rules have the same outlines. -/
structure Catalog.Alike (c c' : Catalog) : Prop where
  tables : c'.tables = c.tables
  claims : ∀ name, c'.claim? name = c.claim? name
  rules : c'.rules.map Rule.outline = c.rules.map Rule.outline

namespace Catalog.Alike

variable {c c' : Catalog}

lemma trans {c'' : Catalog} (h : c.Alike c') (h' : c'.Alike c'') : c.Alike c'' :=
  ⟨h'.tables.trans h.tables, fun name => (h'.claims name).trans (h.claims name),
    h'.rules.trans h.rules⟩

lemma compileRule_eq (h : c.Alike c') (r : Rule) : c'.compileRule r = c.compileRule r := by
  refine compileRule_eq_of_lookups (by rw [table?, table?, h.tables]) fun l _ => ?_
  rw [resolveLookup, resolveLookup, h.claims]

lemma hasRule_eq (h : c.Alike c') (k : RuleKey) : c'.hasRule k = c.hasRule k := by
  have houtline : ∀ c : Catalog, c.hasRule k = true ↔ ∃ o ∈ c.rules.map Rule.outline, o.1 = k :=
    fun c => by simp [hasRule_iff, Rule.outline]
  rw [Bool.eq_iff_iff, houtline, houtline, h.rules]

lemma checkDefine_eq (h : c.Alike c') (r : Rule) : c'.checkDefine r = c.checkDefine r := by
  rw [checkDefine, checkDefine, h.hasRule_eq]

lemma keys_rulesReferencing (h : c.Alike c') (claim : String) :
    (c'.rulesReferencing claim).map Rule.key = (c.rulesReferencing claim).map Rule.key := by
  have houtline : ∀ c : Catalog, (c.rulesReferencing claim).map Rule.key =
      ((c.rules.map Rule.outline).filter fun o => o.2.contains claim).map Prod.fst := fun c => by
    rw [List.filter_map, List.map_map, rulesReferencing]
    simp only [Rule.references_eq]
    rfl
  rw [houtline, houtline, h.rules]

lemma insertRule (h : c.Alike c') {r r' : Rule} (hr : r'.outline = r.outline) :
    (c.insertRule r).Alike (c'.insertRule r') where
  tables := h.tables
  claims := h.claims
  rules := by rw [outlines_insertRule, outlines_insertRule, hr, h.rules]

lemma insertClaim (h : c.Alike c') (claim : Claim) :
    (c.insertClaim claim).Alike (c'.insertClaim claim) where
  tables := h.tables
  claims name := by
    by_cases hname : claim.name = name
    · subst hname
      rw [claim?, claim?, Catalog.insertClaim, Catalog.insertClaim, Keyed.get?_insert_self,
        Keyed.get?_insert_self]
    · exact (Keyed.get?_insert_of_ne hname).trans
        ((h.claims name).trans (Keyed.get?_insert_of_ne hname).symm)
  rules := h.rules

end Catalog.Alike

namespace Admin

/-- The same work, but for stamps and for literals of the rules in the catalog. -/
structure Work.Alike (w w' : Work) : Prop where
  db : Store.Alike w.db w'.db
  catalog : w.catalog.Alike w'.catalog
  issued : w'.issued = w.issued

section

variable {s s' : Setting} {r r' : RuleRecord} {k k' : ClaimRecord}

structure Setting.Alike (s s' : Setting) : Prop where
  naming : s'.naming = s.naming
  ids : s'.ids = s.ids
  regular : s.now.IsRegular
  regular' : s'.now.IsRegular

/-! ### Definitions in step -/

lemma installRule_inStep (hs : s.Alike s') (h : w.Alike w') (hr : r.Same (fun _ => True) r') :
    InStep (fun x y => x.1.Alike y.1) (installRule s w r) (installRule s' w' r') := by
  unfold installRule
  rw [h.catalog.compileRule_eq, hs.naming, ← hr.body_eq, ← hr.id_eq]
  cases hplan : w.catalog.compileRule r.body with
  | error e => exact .error _
  | ok plan =>
    have hnamed : ∀ x ∈ s.naming.renderRule plan, x.IsNamed s.naming := fun x hx =>
      (mem_renders (x := .rule r) ⟨r.body, plan, .inl rfl, hplan, rfl⟩ hx).2.2
    exact (replace_inStep h.db r.id
      (forall₂_ofRendered r.id hs.regular hs.regular' hnamed)).bind fun x y hxy =>
        .ok ⟨hxy, h.catalog, h.issued⟩

lemma installClaim_inStep (hs : s.Alike s') (h : w.Alike w')
    (hk : k.Same (fun _ => True) k') :
    InStep (fun x y => x.1.Alike y.1) (installClaim s w k) (installClaim s' w' k') := by
  have hnamed : ∀ x ∈ [s.naming.renderClaim k.body], x.IsNamed s.naming := fun x hx =>
    List.mem_singleton.mp hx ▸ s.naming.renderClaim_isNamed k.body
  have hreplace := replace_inStep h.db k.id
    (forall₂_ofRendered k.id hs.regular hs.regular' hnamed)
  unfold installClaim
  rw [Catalog.compileClaim_congr _ h.catalog.tables, hs.naming, ← hk.body_eq, ← hk.id_eq]
  refine (InStep.refl (R := Eq) (fun _ => rfl) _).bind fun _ _ _ => ?_
  dsimp only
  cases k.body.source with
  | query sql =>
    dsimp only
    rw [checkClaimQuery_congr h.db.schema]
    exact (InStep.refl (R := Eq) (fun _ => rfl) _).bind fun _ _ _ =>
      hreplace.bind fun x y hxy => .ok ⟨hxy, h.catalog, h.issued⟩
  | table _ => exact hreplace.bind fun x y hxy => .ok ⟨hxy, h.catalog, h.issued⟩

/-- The record of a definition is the same but for the times. -/
lemma recordOf_inStep {α : Type} {P : α → Prop} {old old' : Option (Stamped α)} (body : α)
    (hs : s.Alike s') (h : w.Alike w')
    (hold : Option.Rel (Stamped.Same fun _ => True) old old') (hbody : P body) :
    (recordOf s w old body).1.Alike (recordOf s' w' old' body).1 ∧
      (recordOf s w old body).2.Same P (recordOf s' w' old' body).2 := by
  cases hold with
  | none =>
    refine ⟨⟨h.db, h.catalog, congrArg (· + 1) h.issued⟩, ⟨s'.now, s'.now, ?_⟩,
      ⟨hs.regular, hs.regular⟩, ⟨hs.regular', hs.regular'⟩, hbody⟩
    change Stamped.fresh (s'.ids w'.issued) s'.now body = _
    rw [h.issued, hs.ids]
    rfl
  | some hsame =>
    obtain ⟨⟨created, updated, rfl⟩, hregular, hregular', -⟩ := hsame
    exact ⟨h, ⟨created, s'.now, rfl⟩, ⟨hregular.1, hs.regular⟩, ⟨hregular'.1, hs.regular'⟩, hbody⟩

lemma defineRule_inStep {d : Rule} (hs : s.Alike s') (h : w.Alike w') (hd : d.IsReadable) :
    InStep (fun x y => x.1.Alike y.1) (defineRule s w d) (defineRule s' w' d) := by
  unfold defineRule
  refine (InStep.refl (R := Eq) (fun _ => rfl) _).bind fun _ _ _ => ?_
  rw [h.catalog.checkDefine_eq]
  refine (InStep.refl (R := Eq) (fun _ => rfl) _).bind fun _ _ _ => ?_
  refine ((h.db.rule d.key).mapError _).bind fun old old' hold => ?_
  obtain ⟨hwork, hrecord⟩ := recordOf_inStep (P := Rule.IsReadable) d hs h hold hd
  refine (installRule_inStep hs hwork ⟨hrecord.1, hrecord.2, hrecord.3, trivial⟩).bind
    fun x y hxy => ?_
  exact ((hxy.db.saveRule hrecord).mapError _).bind fun db db' hdb =>
    .ok ⟨hdb, hxy.catalog.insertRule rfl, hxy.issued⟩

lemma recompile_inStep {x y : Work × Summary} (hs : s.Alike s') (h : x.1.Alike y.1)
    (key : RuleKey) :
    InStep (fun x y => x.1.Alike y.1) (recompile s x key) (recompile s' y key) := by
  unfold recompile
  refine ((h.db.rule key).mapError _).bind fun old old' hold => ?_
  cases hold with
  | none => exact .ok h
  | some hsame => exact (installRule_inStep hs h hsame).bind fun x y hxy => .ok hxy

lemma defineClaim_inStep {d : Claim} (hs : s.Alike s') (h : w.Alike w') :
    InStep (fun x y => x.1.Alike y.1) (defineClaim s w d) (defineClaim s' w' d) := by
  unfold defineClaim
  refine ((h.db.claim d.name).mapError _).bind fun old old' hold => ?_
  obtain ⟨hwork, hrecord⟩ := recordOf_inStep (P := fun _ => True) d hs h hold trivial
  refine (installClaim_inStep hs hwork hrecord).bind fun x y hxy => ?_
  refine ((hxy.db.saveClaim hrecord).mapError _).bind fun db db' hdb => ?_
  have hcatalog := hxy.catalog.insertClaim d
  dsimp only
  rw [hcatalog.keys_rulesReferencing]
  exact InStep.foldlM (R := Eq) (S := fun x y : Work × Summary => x.1.Alike y.1)
    (List.forall₂_same.mpr fun _ _ => rfl)
    (fun x y key _ hxy hkey => hkey ▸ recompile_inStep hs hxy key) ⟨hdb, hcatalog, hxy.issued⟩

end

end Admin

end RowPolicy
