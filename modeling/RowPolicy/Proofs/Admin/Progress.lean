import RowPolicy.Proofs.Admin.Install
import RowPolicy.Proofs.Database.Constraints
import RowPolicy.Proofs.Database.Resolution
import RowPolicy.Proofs.Database.Selection

/-!
# Steps that succeed

When the steps of an installation succeed. The store takes every artifact. A view can be created if
its name can be written and is not that of a table, and if all of it can then be read. What could be
read before can still be read after a view with a new name was added.
-/

namespace RowPolicy

open Sql Store

/-- A loop succeeds exactly if each of its rounds does, and what each round keeps then holds at its
end. -/
lemma foldlM_iff {ε α β : Type} {f : β → α → Except ε β} {b : β} {items : List α}
    (P : List α → β → Prop) (A : List α → α → Prop) (hstart : P [] b)
    (hstep : ∀ done a rest b₁, items = done ++ a :: rest → P done b₁ →
      ((f b₁ a).isOk = true ↔ A done a) ∧ ∀ b₂, f b₁ a = .ok b₂ → P (done ++ [a]) b₂) :
    ((items.foldlM f b).isOk = true ↔ ∀ done a rest, items = done ++ a :: rest → A done a) ∧
      ∀ b', items.foldlM f b = .ok b' → P items b' := by
  -- The invariant is over the items that are left, beside those that are done.
  have hloop : ∀ (rest done : List α) (b₁ : β), items = done ++ rest → P done b₁ →
      ((rest.foldlM f b₁).isOk = true ↔
        ∀ more a tail, rest = more ++ a :: tail → A (done ++ more) a) ∧
      ∀ b', rest.foldlM f b₁ = .ok b' → P items b' := by
    intro rest
    induction rest with
    | nil =>
      intro done b₁ hitems hdone
      refine ⟨iff_of_true rfl fun more a tail h => by simp at h, fun b' h => ?_⟩
      cases h
      rwa [hitems, List.append_nil]
    | cons a rest ih =>
      intro done b₁ hitems hdone
      obtain ⟨hok, hkept⟩ := hstep done a rest b₁ hitems hdone
      rw [List.foldlM_cons]
      cases hround : f b₁ a with
      | error e =>
        rw [hround] at hok
        refine ⟨iff_of_false nofun fun hall => ?_, nofun⟩
        exact nomatch hok.mpr (List.append_nil done ▸ hall [] a rest rfl)
      | ok b₂ =>
        rw [hround] at hok
        obtain ⟨hrest, hend⟩ := ih (done ++ [a]) b₂ (by simp [hitems]) (hkept b₂ hround)
        rw [ok_bind]
        refine ⟨hrest.trans ⟨fun hall more a' tail h => ?_, fun hall more a' tail h => ?_⟩, hend⟩
        · cases more with
          | nil =>
            cases h
            exact (List.append_nil done).symm ▸ hok.mp rfl
          | cons c more =>
            cases h
            simpa using hall more a' tail rfl
        · simpa using hall (a :: more) a' tail (by rw [h, List.cons_append])
  exact hloop items [] b rfl hstart

/-! ### Rows of the store -/

namespace Table

variable {t : Table}

lemma insert_isOk {given : List (Nat × Cell)} (hindex : t.rowIdIndex? = none)
    (hnull : t.checkNotNull (t.newCells given) = .ok ())
    (hsets : ∀ set ∈ t.uniqueSets, ∀ r ∈ t.rows, agree set r.cells (t.newCells given) = false) :
    ∃ t' id, t.insert given none = .ok (t', id) := by
  have hids : t.rows.any (fun r => r.id == t.nextRowId) = false :=
    List.any_eq_false.mpr fun r hr heq => (lt_nextRowId hr).ne (beq_iff_eq.mp heq)
  have hfind : t.uniqueSets.find? (fun set =>
      t.rows.any fun r => agree set r.cells (t.newCells given)) = none :=
    List.find?_eq_none.mpr fun set hset hany => by
      obtain ⟨r, hr, hagree⟩ := List.any_eq_true.mp hany
      rw [hsets set hset r hr] at hagree
      cases hagree
  have hunique : t.checkUnique t.rows ⟨t.nextRowId, t.newCells given⟩ = .ok () := by
    simp only [checkUnique, hids, Bool.and_false, Bool.false_eq_true, if_false, hfind]
  refine ⟨t.withRow ⟨t.nextRowId, t.newCells given⟩, t.nextRowId, ?_⟩
  unfold insert
  simp only [hindex, Option.getD_none, Cell.isNull, Bool.or_true, if_true, pure_bind, checkRow]
  rw [hnull, ok_bind, hunique, ok_bind]
  rfl

end Table

namespace Store

variable {db db' : Database} {c : Contents}

/-- A row takes the place of those that it cannot stand beside. -/
lemma replace_isOk {u t : Table} {values : List (String × Cell)}
    (ht : db.table? u.name = some t) (hschema : t.schema = u)
    (hcolumns : (values.map Prod.fst).all (fun c => (u.columnIndex? c).isSome) = true)
    (hindex : u.rowIdIndex? = none)
    (hnull : u.checkNotNull (u.newCells (placed u values)) = .ok ()) :
    ∃ db', Store.replace db u values = .ok db' := by
  have htable := table_of_schema ht hschema hcolumns
  subst hschema
  have hinserted : ∀ kept : List Row, (∀ set ∈ t.uniqueSets, ∀ r ∈ kept,
      Table.agree set r.cells (t.newCells (placed t values)) = false) →
      ∃ t' id, ({ t with rows := kept } : Table).insert (placed t values) none = .ok (t', id) :=
    fun kept hkept => Table.insert_isOk hindex hnull hkept
  obtain ⟨t', id, hinsert⟩ := hinserted (t.rows.filter fun r =>
    !t.uniqueSets.any fun set => Table.agree set r.cells (t.newCells (placed t values)))
    fun set hset r hr => by
      have hkept := (List.mem_filter.mp hr).2
      rw [Bool.not_eq_true', List.any_eq_false] at hkept
      exact Bool.eq_false_iff.mpr (hkept set hset)
  exact ⟨_, bind_eq_ok.mpr ⟨t, htable, bind_eq_ok.mpr ⟨(t', id), hinsert, rfl⟩⟩⟩

lemma replace_writes {u t : Table} {values : List (String × Cell)}
    (hdistinct : db.HasDistinctTables) (ht : db.table? u.name = some t) (hschema : t.schema = u)
    (h : Store.replace db u values = .ok db') : Writes u.name db db' := by
  subst hschema
  obtain ⟨t₀, ht₀, h⟩ := bind_eq_ok.mp h
  obtain rfl : t = t₀ := Option.some.inj (ht.symm.trans (table_eq_ok ht₀))
  obtain ⟨⟨t', id⟩, hinsert, h⟩ := bind_eq_ok.mp h
  cases h
  obtain ⟨-, rfl⟩ := Table.insert_eq_ok hinsert
  exact writes_setTable (t := t) hdistinct ht rfl

lemma Contains.saveArtifact_isOk (h : Contains db c) (a : ArtifactRecord) :
    ∃ db', Store.saveArtifact db a = .ok db' := by
  obtain ⟨t, ht, hschema, -⟩ := h.artifacts.holds.exists_table
  have hnull : artifactTable.checkNotNull (artifactRows.cells a) = .ok () := by
    simp [artifactRows, Table.checkNotNull, artifactTable, textColumn, Table.mustHaveValue,
      Cell.isNull]
  have hcolumns : ((Contains.artifactValues a).map Prod.fst).all
      (fun c => (artifactTable.columnIndex? c).isSome) = true := by
    change ["identifier", "owner", "kind", "target", "operation", "fingerprint", "record"].all
      (fun c => (artifactTable.columnIndex? c).isSome) = true
    decide
  rw [← Contains.newCells_artifactValues] at hnull
  obtain ⟨db', hreplace⟩ := replace_isOk ht hschema hcolumns (by decide) hnull
  exact ⟨db', mapError_eq_ok.mpr hreplace⟩

lemma Contains.saveArtifact_writes {a : ArtifactRecord} (h : Contains db c)
    (hsave : Store.saveArtifact db a = .ok db') : Writes artifactTable.name db db' := by
  obtain ⟨t, ht, hschema, -⟩ := h.artifacts.holds.exists_table
  exact replace_writes h.distinct ht hschema (mapError_eq_ok.mp hsave)

lemma Holds.deleteRows_isOk {α : Type} {T : RecordTable α} {as : List α} (h : Holds T db as)
    (wanted : List (String × String)) (columns : List String)
    (hwanted : wanted.map Prod.fst = columns)
    (hcolumns : columns.all (fun c => (T.table.columnIndex? c).isSome) = true) :
    ∃ db' removed, Store.deleteRows db T.table wanted = .ok (db', removed) := by
  obtain ⟨t, ht, hschema, -⟩ := h.exists_table
  subst hwanted
  exact ⟨_, _, bind_eq_ok.mpr ⟨t, mapError_eq_ok.mpr (table_of_schema ht hschema hcolumns), rfl⟩⟩

lemma Contains.deleteArtifact_isOk (h : Contains db c) (identifier : String) :
    ∃ db' removed, Store.deleteArtifact db identifier = .ok (db', removed) :=
  h.artifacts.holds.deleteRows_isOk [("identifier", identifier)] ["identifier"] rfl (by decide)

lemma Contains.deleteArtifact_writes {identifier : String} {removed : Bool} (h : Contains db c)
    (hdelete : Store.deleteArtifact db identifier = .ok (db', removed)) :
    Writes artifactTable.name db db' :=
  (h.artifacts.delete h.distinct (fun _ _ => hasTexts_identifier identifier) hdelete).2

lemma Writes.trans {name : String} {db'' : Database} (h : Writes name db db')
    (h' : Writes name db' db'') : Writes name db db'' where
  others other t ht hne := h'.others other t (h.others other t ht hne) hne
  schema := h'.schema.trans h.schema

lemma Writes.withoutViews {name : String} (h : Writes name db db') (names : List String) :
    Writes name (db.withoutViews names) (db'.withoutViews names) := by
  induction names generalizing db db' with
  | nil => exact h
  | cons view names ih =>
    refine ih ⟨h.others, ?_⟩
    exact congrArg (Database.withoutView · view) h.schema

end Store

/-! ### Creation of views -/

namespace Sql

/-- A name that a view can have: the statements that drop and read the view can be parsed, and the
name is not reserved. -/
structure IsViewName (name : String) : Prop where
  drops : parse (dropView name) ≠ .error
  reads : parse (selectAll name) ≠ .error
  free : Database.isReserved name = false

def viewOf? (sql : String) : Option View :=
  match parse sql with
  | .one (.createView name false q) _ => some ⟨name, sql, q⟩
  | _ => none

end Sql

namespace Database

variable {db db' : Database} {name sql : String} {effect : Database.Effect}

/-- A text that is not too deep creates a view under a name that is not that of a table. -/
structure Creates (db : Database) (name sql : String) : Prop where
  isName : IsViewName name
  noTable : db.table? name = none
  shallow : isShallow sql
  exists_query : ∃ q rest, parse sql = .one (.createView name false q) rest ∧ q.params = 0

/-- The database with the view that a text creates in place of the one with a name. -/
def recreated (db : Database) (name sql : String) : Database :=
  { db.withoutView name with views := (db.withoutView name).views ++ (viewOf? sql).toList }

/-- There is a table or a view with a name, and it has columns. -/
def CanRead (db : Database) (name : String) : Prop :=
  ∃ found, (db.binder true).find name = .ok found ∧ found.2.1 ≠ []

lemma recreated_eq {q : Query} {rest : List Lexeme}
    (h : parse sql = .one (.createView name false q) rest) :
    db.recreated name sql = (db.withoutView name).withView ⟨name, sql, q⟩ := by
  rw [recreated, viewOf?, h]
  rfl

lemma execute_dropView_isOk (hparse : parse (Sql.dropView name) ≠ .error)
    (hnone : db.table? name = none) :
    db.execute {} (Sql.dropView name) = .ok (db.withoutView name, {}) := by
  have hdrop : ∃ dropped, db.dropView name true = .ok dropped := by
    unfold dropView
    rw [hnone]
    split <;> exact ⟨_, rfl⟩
  obtain ⟨dropped, hdrop⟩ := hdrop
  obtain rfl := dropView_eq_ok hdrop
  rw [execute, prepare, (parse_dropView name).eq hparse]
  simp only [prepareStatement, Statement.depth, Nat.zero_le, if_true, bindStatement, hdrop]
  rw [ok_bind, pure_bind, pure_bind]
  change db.run {} (.dropView name true) = _
  rw [run, hdrop, ok_bind]
  rfl

lemma execute_createView_iff {q : Query} {rest : List Lexeme}
    (hparse : parse sql = .one (.createView name false q) rest) (hshallow : isShallow sql) :
    db.execute {} sql = .ok (db', effect) ↔ isReserved name = false ∧ q.params = 0 ∧
      db.hasObject name = false ∧ effect = {} ∧ db' = db.withView ⟨name, sql, q⟩ := by
  have hdepth := (isShallow_iff hparse).mp hshallow
  rw [execute, prepare, hparse]
  simp only [prepareStatement, hdepth, if_true, bindStatement, Bool.false_eq_true, if_false]
  cases hreserved : isReserved name with
  | true => exact iff_of_false (by rintro ⟨⟩) (by rintro ⟨⟨⟩, -⟩)
  | false =>
    cases hobject : db.hasObject name with
    | true =>
      refine iff_of_false ?_ (by simp)
      by_cases hparams : 0 < q.params <;> simp only [hparams] <;> rintro ⟨⟩
    | false =>
      by_cases hparams : 0 < q.params
      · refine iff_of_false ?_ fun h => hparams.ne' h.2.1
        simp only [hparams]
        rintro ⟨⟩
      · have hzero : q.params = 0 := by omega
        have hcreate : db.createView ⟨name, sql, q⟩ = .ok (db.withView ⟨name, sql, q⟩) := by
          simp only [createView, hreserved, hobject]
          rfl
        simp only [hzero, Statement.params, Bool.or_false, Bool.false_eq_true, lt_irrefl,
          decide_false, if_false, true_and]
        rw [ok_bind, pure_bind]
        simp only [checkParams, List.length_nil, BEq.rfl, if_true]
        rw [ok_bind, run, hcreate, ok_bind, pure_eq_ok, Prod.mk.injEq]
        exact ⟨fun h => ⟨h.2.symm, h.1.symm⟩, fun h => ⟨h.2.symm, h.1.symm⟩⟩

/-- Reading all of a view can be prepared if there is such a view and it has columns. -/
lemma prepare_selectAll (hparse : parse (Sql.selectAll name) ≠ .error) :
    (db.prepare true (Sql.selectAll name)).isOk = true ↔ db.CanRead name := by
  have hquery : ((db.binder true).query [] (allRows name)).isOk = true ↔ db.CanRead name := by
    rw [isOk_iff]
    constructor
    · rintro ⟨⟨bound, headings⟩, hbound⟩
      obtain ⟨source, columns, hasRowId, shown, filter, a, hfind, hshown, -⟩ :=
        Binder.select_eq_ok.mp hbound
      refine ⟨_, hfind, fun hnil => ?_⟩
      obtain rfl : columns = [] := hnil
      rw [Binder.outputs, Binder.output] at hshown
      cases hshown
    · rintro ⟨⟨source, columns, hasRowId⟩, hfind, hne⟩
      have hempty : columns.isEmpty = false := by simpa using hne
      have hshown : (db.binder true).outputs [⟨name, columns, hasRowId⟩] [.all] =
          .ok (Binder.allColumns ⟨name, columns, hasRowId⟩) := by
        rw [Binder.outputs, Binder.output, Binder.outputs, hempty]
        exact congrArg Except.ok (List.append_nil _)
      have hfilter : (db.binder true).expr [⟨name, columns, hasRowId⟩] (.int 1) =
          .ok (.const (.int 1), .none) := by
        rw [Binder.expr]
      exact ⟨_, Binder.select_eq_ok.mpr ⟨_, _, _, _, _, _, hfind, hshown, hfilter, rfl, rfl⟩⟩
  rw [prepare, (parse_selectAll name).eq hparse]
  have hdepth : (Statement.query (allRows name)).depth ≤ maxDepth := nested_allRows name
  simp only [prepareStatement, hdepth, if_true, bindStatement]
  exact (isOk_map fun _ _ => rfl).trans ((isOk_map fun _ _ => rfl).trans hquery)

end Database

namespace Admin

variable {db db' : Database} {identifier sql : String}

/-- A view is created exactly if its text creates one under a name that it can have, and all of it
can then be read. -/
lemma installView_iff (htext : Database.CreatesView identifier sql) :
    installView db identifier sql = .ok db' ↔ db.Creates identifier sql ∧
      db' = db.recreated identifier sql ∧ db'.CanRead identifier := by
  constructor
  · intro h
    unfold installView at h
    obtain ⟨⟨dropped, _⟩, hdropped, h⟩ := bind_eq_ok.mp h
    obtain ⟨⟨created, _⟩, hcreated, h⟩ := bind_eq_ok.mp h
    obtain ⟨p, hp, h⟩ := bind_eq_ok.mp h
    cases h
    rw [installing_eq_ok] at hdropped hcreated hp
    obtain rfl := Database.execute_dropView hdropped
    obtain ⟨q, rest, hparse, hshallow, hreserved, hparams, htable, -, rfl⟩ :=
      Database.execute_createView htext hcreated
    have hdrops : parse (Sql.dropView identifier) ≠ .error := fun herror => by
      rw [Database.execute, Database.prepare, herror] at hdropped
      cases hdropped
    have hreads : parse (Sql.selectAll identifier) ≠ .error := fun herror => by
      rw [Database.prepare, herror] at hp
      cases hp
    exact ⟨⟨⟨hdrops, hreads, hreserved⟩, htable, hshallow, q, rest, hparse, hparams⟩,
      (Database.recreated_eq hparse).symm,
      (Database.prepare_selectAll hreads).mp (isOk_iff.mpr ⟨p, hp⟩)⟩
  · rintro ⟨⟨⟨hdrops, hreads, hreserved⟩, htable, hshallow, q, rest, hparse, hparams⟩, rfl, hread⟩
    obtain ⟨p, hp⟩ := isOk_iff.mp ((Database.prepare_selectAll hreads).mpr hread)
    have hobject : (db.withoutView identifier).hasObject identifier = false := by
      rw [Database.hasObject, Database.view?_withoutView_self]
      change ((db.table? identifier).isSome || false) = false
      rw [htable]
      rfl
    have hcreated := (Database.execute_createView_iff hparse hshallow).mpr
      ⟨hreserved, hparams, hobject, rfl, rfl⟩
    rw [← Database.recreated_eq hparse] at hcreated
    refine bind_eq_ok.mpr ⟨_, installing_eq_ok.mpr
      (Database.execute_dropView_isOk hdrops htable), ?_⟩
    exact bind_eq_ok.mpr ⟨_, installing_eq_ok.mpr hcreated,
      bind_eq_ok.mpr ⟨p, installing_eq_ok.mpr hp, rfl⟩⟩

end Admin

/-! ### Views that are added -/

lemma Binder.Extends.trans {b c d : Binder} (h : b.Extends c) (h' : c.Extends d) : b.Extends d :=
  ⟨h.1.trans h'.1, fun name found hfound => h'.2 name found (h.2 name found hfound)⟩

namespace Database

variable {db db' : Database} {name other sql : String} {x : Rendered} {xs ys : List Rendered}

def withArtifact (db : Database) (x : Rendered) : Database :=
  match x.body with
  | .view sql => db.recreated x.identifier sql
  | _ => db

def withArtifacts (db : Database) (xs : List Rendered) : Database := xs.foldl withArtifact db

/-- An artifact can be installed: if it is a view, its text creates it and all of it can then be
read. -/
def CanInstall (db : Database) (x : Rendered) : Prop :=
  ∀ sql, x.body = .view sql →
    db.Creates x.identifier sql ∧ (db.withArtifact x).CanRead x.identifier

lemma withArtifact_view (h : x.body = .view sql) :
    db.withArtifact x = db.recreated x.identifier sql := by
  unfold withArtifact
  rw [h]

lemma withArtifact_other (h : ∀ sql, x.body ≠ .view sql) : db.withArtifact x = db := by
  unfold withArtifact
  split
  next sql hsql => exact absurd hsql (h sql)
  next => rfl

lemma withArtifacts_append (db : Database) (xs ys : List Rendered) :
    db.withArtifacts (xs ++ ys) = (db.withArtifacts xs).withArtifacts ys := List.foldl_append

lemma tables_withArtifact (db : Database) (x : Rendered) :
    (db.withArtifact x).tables = db.tables := by
  unfold withArtifact
  split <;> rfl

lemma tables_withArtifacts (db : Database) (xs : List Rendered) :
    (db.withArtifacts xs).tables = db.tables := by
  induction xs generalizing db with
  | nil => rfl
  | cons x xs ih => exact (ih (db.withArtifact x)).trans (tables_withArtifact db x)

lemma table?_withArtifacts (db : Database) (xs : List Rendered) (name : String) :
    (db.withArtifacts xs).table? name = db.table? name := by
  rw [table?, table?, tables_withArtifacts]

lemma withArtifact_congr (h : db'.schema = db.schema) (x : Rendered) :
    (db'.withArtifact x).schema = (db.withArtifact x).schema := by
  unfold withArtifact
  split
  next sql hsql => exact congrArg (recreated · x.identifier sql) h
  next => exact h

lemma canRead_congr (h : db'.schema = db.schema) : db'.CanRead name ↔ db.CanRead name := by
  rw [CanRead, CanRead, binder_congr h]

lemma Creates.congr (h : db.Creates name sql) (hschema : db'.schema = db.schema) :
    db'.Creates name sql where
  isName := h.isName
  noTable := table?_eq_none_of_schema (by rw [hschema]) h.noTable
  shallow := h.shallow
  exists_query := h.exists_query

lemma Creates.withArtifact (h : db.Creates name sql) (x : Rendered) :
    (db.withArtifact x).Creates name sql :=
  ⟨h.isName, by rw [table?, tables_withArtifact]; exact h.noTable, h.shallow, h.exists_query⟩

lemma Creates.view?_self (h : db.Creates name sql) : ∃ q rest,
    parse sql = .one (.createView name false q) rest ∧
      (db.recreated name sql).view? name = some ⟨name, sql, q⟩ := by
  obtain ⟨q, rest, hparse, -⟩ := h.exists_query
  refine ⟨q, rest, hparse, ?_⟩
  rw [recreated_eq hparse]
  have hfree : (db.withoutView name).view? (View.mk name sql q).name = none :=
    view?_withoutView_self
  exact view?_withView_self hfree

lemma Creates.view?_other (h : db.Creates name sql) (hother : Text.sameName name other = false) :
    (db.recreated name sql).view? other = db.view? other := by
  obtain ⟨q, rest, hparse, -⟩ := h.exists_query
  have hname : Text.sameName (View.mk name sql q).name other = false := hother
  rw [recreated_eq hparse, view?_withView hname, view?_withoutView hother]

lemma Creates.installed (h : db.Creates name sql) : (db.recreated name sql).Installed name sql :=
  ⟨h.noTable, h.isName.reads, h.shallow, h.view?_self⟩

lemma withoutView_of_none (h : db.view? name = none) : db.withoutView name = db := by
  have hviews : db.views.filter (fun v => !Text.sameName v.name name) = db.views :=
    List.filter_eq_self.mpr fun v hv => by simpa using List.find?_eq_none.mp h v hv
  rw [withoutView, hviews]

/-- What could be read before can be read after a view was added. -/
lemma extends_withView (db : Database) (v : View) (hasPrincipal : Bool) :
    (db.binder hasPrincipal).Extends ((db.withView v).binder hasPrincipal) := by
  have hdepth : ∀ fuel name, Agrees (db.sourceAt hasPrincipal fuel name)
      ((db.withView v).sourceAt hasPrincipal fuel name) := by
    intro fuel
    induction fuel with
    | zero =>
      intro name found h
      obtain ⟨t, ht⟩ | ⟨u, k, -, -, hk⟩ := sourceAt_cases h
      · rw [sourceAt_table ht] at h
        rwa [sourceAt_table (show (db.withView v).table? name = some t from ht)]
      · cases hk
    | succ fuel ih =>
      intro name found h
      obtain ⟨t, ht⟩ | ⟨u, k, ht, hu, -⟩ := sourceAt_cases h
      · rw [sourceAt_table ht] at h
        rwa [sourceAt_table (show (db.withView v).table? name = some t from ht)]
      · -- The view that is found comes before the one that was added.
        have hu' : (db.withView v).view? name = some u := by
          rw [view?] at hu ⊢
          rw [withView, List.find?_append, hu, Option.some_or]
        rw [sourceAt_view ht hu] at h
        rw [sourceAt_view (show (db.withView v).table? name = none from ht) hu']
        obtain ⟨bound, hbound, rfl⟩ := map_eq_ok.mp h
        have hextends : Binder.Extends ⟨db.sourceAt hasPrincipal fuel, hasPrincipal⟩
            ⟨(db.withView v).sourceAt hasPrincipal fuel, hasPrincipal⟩ := ⟨rfl, ih⟩
        exact map_eq_ok.mpr ⟨bound, hextends.query [] u.query bound hbound, rfl⟩
  refine ⟨rfl, fun name found hfound => ?_⟩
  refine sourceAt_mono ?_ name found (hdepth _ name found hfound)
  rw [withView, List.length_append]
  exact Nat.le_add_right _ _

lemma extends_recreated (h : db.view? name = none) (hasPrincipal : Bool) :
    (db.binder hasPrincipal).Extends ((db.recreated name sql).binder hasPrincipal) := by
  rw [recreated, withoutView_of_none h]
  cases viewOf? sql with
  | none =>
    rw [Option.toList_none, List.append_nil]
    exact ⟨rfl, fun _ => .refl _⟩
  | some v => exact db.extends_withView v hasPrincipal

/-- Artifacts that can be installed one after the other without taking the view of another one:
their views are created, are not there and have names of their own. -/
structure AreNew (db : Database) (xs : List Rendered) : Prop where
  creates : ∀ x ∈ xs, ∀ sql, x.body = .view sql → db.Creates x.identifier sql
  free : ∀ x ∈ xs, ∀ sql, x.body = .view sql → db.view? x.identifier = none
  distinct : xs.Pairwise fun x y => ∀ sql sql', x.body = .view sql → y.body = .view sql' →
    Text.sameName x.identifier y.identifier = false

lemma AreNew.cons (h : db.AreNew (x :: xs)) (hasPrincipal : Bool) :
    (db.withArtifact x).AreNew xs ∧
      (db.binder hasPrincipal).Extends ((db.withArtifact x).binder hasPrincipal) := by
  obtain ⟨hx, hdistinct⟩ := List.pairwise_cons.mp h.distinct
  refine ⟨⟨fun y hy sql hsql => ?_, fun y hy sql hsql => ?_, hdistinct⟩, ?_⟩
  · exact (h.creates y (List.mem_cons_of_mem x hy) sql hsql).withArtifact x
  · have hfree := h.free y (List.mem_cons_of_mem x hy) sql hsql
    unfold withArtifact
    split
    next sql' hsql' =>
      rwa [(h.creates x List.mem_cons_self sql' hsql').view?_other (hx y hy sql' sql hsql' hsql)]
    next => exact hfree
  · unfold withArtifact
    split
    next sql hsql => exact extends_recreated (h.free x List.mem_cons_self sql hsql) hasPrincipal
    next => exact ⟨rfl, fun _ => .refl _⟩

/-- What could be read before can be read after new artifacts were installed, and the others are
still new. -/
lemma AreNew.append (h : db.AreNew (xs ++ ys)) (hasPrincipal : Bool) :
    (db.withArtifacts xs).AreNew ys ∧
      (db.binder hasPrincipal).Extends ((db.withArtifacts xs).binder hasPrincipal) := by
  induction xs generalizing db with
  | nil => exact ⟨h, rfl, fun _ => .refl _⟩
  | cons x xs ih =>
    obtain ⟨hrest, hextends⟩ := h.cons hasPrincipal
    obtain ⟨hys, hextends'⟩ := ih hrest
    exact ⟨hys, hextends.trans hextends'⟩

end Database

lemma Store.Writes.withArtifact {name : String} {db db' : Database} (h : Writes name db db')
    (x : Rendered) : Writes name (db.withArtifact x) (db'.withArtifact x) where
  others other t ht hne := by
    rw [Database.table?, Database.tables_withArtifact] at ht ⊢
    exact h.others other t ht hne
  schema := Database.withArtifact_congr h.schema x

/-! ### Installation -/

namespace Admin

variable {db db' sim : Database} {c : Contents} {a : ArtifactRecord} {as : List ArtifactRecord}
  {owner : Uuid}

lemma installView_isOk {identifier sql : String} (htext : Database.CreatesView identifier sql) :
    (installView db identifier sql).isOk = true ↔
      db.Creates identifier sql ∧ (db.recreated identifier sql).CanRead identifier := by
  rw [isOk_iff]
  constructor
  · rintro ⟨db', h⟩
    obtain ⟨hcreates, rfl, hread⟩ := (installView_iff htext).mp h
    exact ⟨hcreates, hread⟩
  · rintro ⟨hcreates, hread⟩
    exact ⟨_, (installView_iff htext).mpr ⟨hcreates, rfl, hread⟩⟩

lemma remove_isOk (hc : Contains db c) (ha : a.IsDroppable db) :
    ∃ db', remove db a = .ok db' ∧
      Writes artifactTable.name (db.withoutViews a.viewNames) db' := by
  have hc' : Contains (db.withoutViews a.viewNames) c :=
    hc.congr (Database.tables_withoutViews db a.viewNames)
  obtain ⟨db', removed, hdelete⟩ := hc'.deleteArtifact_isOk a.identifier
  refine ⟨db', ?_, hc'.deleteArtifact_writes hdelete⟩
  unfold remove
  unfold ArtifactRecord.viewNames at hdelete
  dsimp only
  split
  next hview =>
    obtain ⟨hdrops, hnone⟩ := ha hview
    have hdropped : ofStore (Store.ofStorage (db.execute {} (Sql.dropView a.identifier))) =
        .ok (db.withoutView a.identifier, {}) :=
      ofStore_eq_ok.mpr (mapError_eq_ok.mpr (Database.execute_dropView_isOk hdrops hnone))
    rw [if_pos hview] at hdelete
    have hdeleted : ofStore (Store.deleteArtifact (db.withoutView a.identifier) a.identifier) =
        .ok (db', removed) := ofStore_eq_ok.mpr hdelete
    rw [hdropped, ok_bind, pure_bind, hdeleted, ok_bind]
    rfl
  next hview =>
    rw [if_neg hview] at hdelete
    have hdeleted : ofStore (Store.deleteArtifact db a.identifier) = .ok (db', removed) :=
      ofStore_eq_ok.mpr hdelete
    rw [pure_bind, hdeleted, ok_bind]
    rfl

lemma removeAll_isOk (hc : Contains db c) (has : ∀ a ∈ as, a.IsDroppable db) :
    ∃ db', removeAll db as = .ok db' ∧
      Writes artifactTable.name (db.withoutViews (as.flatMap ArtifactRecord.viewNames)) db' := by
  unfold removeAll
  induction as generalizing db c with
  | nil => exact ⟨db, rfl, fun _ _ ht _ => ht, rfl⟩
  | cons a as ih =>
    obtain ⟨ha, has⟩ := List.forall_mem_cons.mp has
    obtain ⟨db₁, hremove, hwrites⟩ := remove_isOk hc ha
    obtain ⟨hc₁, halters⟩ := remove_eq_ok hc hremove
    obtain ⟨db₂, hrest, hwrites'⟩ := ih hc₁ fun b hb => (has b hb).congr halters.tables
    refine ⟨db₂, ?_, ?_⟩
    · rw [List.foldlM_cons, hremove, ok_bind]
      exact hrest
    · rw [List.flatMap_cons, Database.withoutViews, List.foldl_append]
      exact (hwrites.withoutViews _).trans hwrites'

lemma install_iff (hc : Contains db c) (ha : a.IsCreated) :
    ((install db a).isOk = true ↔ db.CanInstall a.rendered) ∧
      ∀ db', install db a = .ok db' →
        Writes artifactTable.name (db.withArtifact a.rendered) db' := by
  have hsave : ∀ created : Database, created.tables = db.tables →
      (ofStore (Store.saveArtifact created a)).isOk = true := fun created htables => by
    obtain ⟨db', hsaved⟩ := (hc.congr htables).saveArtifact_isOk a
    exact isOk_iff.mpr ⟨db', ofStore_eq_ok.mpr hsaved⟩
  unfold install
  dsimp only
  split
  next sql hbody =>
    obtain ⟨-, htext⟩ := ha sql hbody
    have hview : db.withArtifact a.rendered = db.recreated a.identifier sql :=
      Database.withArtifact_view (x := a.rendered) hbody
    refine ⟨(isOk_map fun created hcreated => hsave created ?_).trans
      ((installView_isOk htext).trans ⟨fun h sql' hsql' => ?_, fun h => ?_⟩), fun db' h => ?_⟩
    · exact (installView_eq_ok htext hcreated).1
    · cases hbody.symm.trans hsql'
      rw [hview]
      exact h
    · rw [← hview]
      exact h sql hbody
    · obtain ⟨created, hcreated, h⟩ := bind_eq_ok.mp h
      obtain ⟨-, rfl, -⟩ := (installView_iff htext).mp hcreated
      have hc' : Contains (db.recreated a.identifier sql) c := hc.congr rfl
      rw [hview]
      exact hc'.saveArtifact_writes (ofStore_eq_ok.mp h)
  next hbody =>
    rw [pure_bind, Database.withArtifact_other (x := a.rendered) hbody]
    refine ⟨iff_of_true (hsave db rfl) fun sql hsql => absurd hsql (hbody sql), fun db' h => ?_⟩
    exact hc.saveArtifact_writes (ofStore_eq_ok.mp h)

lemma canInstall_congr {x : Rendered} (h : db'.schema = db.schema) :
    db'.CanInstall x ↔ db.CanInstall x := by
  refine forall₂_congr fun sql hsql =>
    and_congr ⟨fun hc => hc.congr h.symm, fun hc => hc.congr h⟩ ?_
  exact Database.canRead_congr (Database.withArtifact_congr h x)

/-- Artifacts are installed exactly if each can be after those before it. -/
lemma installAll_iff (hc : Contains db c) (hregular : ∀ a ∈ as, a.createdAt.IsRegular)
    (hcreated : ∀ a ∈ as, a.IsCreated) (hwrites : Writes artifactTable.name sim db) :
    ((as.foldlM install db).isOk = true ↔ ∀ done a rest, as = done ++ a :: rest →
      (sim.withArtifacts (done.map ArtifactRecord.rendered)).CanInstall a.rendered) ∧
    ∀ db', as.foldlM install db = .ok db' →
      Contains db' (as.foldl Contents.saveArtifact c) ∧
      Writes artifactTable.name (sim.withArtifacts (as.map ArtifactRecord.rendered)) db' := by
  refine foldlM_iff (P := fun done db' => Contains db' (done.foldl Contents.saveArtifact c) ∧
    Writes artifactTable.name (sim.withArtifacts (done.map ArtifactRecord.rendered)) db')
    (A := fun done a =>
      (sim.withArtifacts (done.map ArtifactRecord.rendered)).CanInstall a.rendered)
    ⟨hc, hwrites⟩ ?_
  rintro done a rest db₁ rfl ⟨hc₁, hwrites₁⟩
  have ha : a ∈ done ++ a :: rest := by simp
  obtain ⟨hok, hwritten⟩ := install_iff hc₁ (hcreated a ha)
  refine ⟨hok.trans (canInstall_congr hwrites₁.schema), fun db₂ hinstall => ⟨?_, ?_⟩⟩
  · rw [List.foldl_append]
    exact (install_eq_ok hc₁ (hregular a ha) (hcreated a ha) hinstall).1
  · rw [List.map_append, Database.withArtifacts_append]
    exact (hwrites₁.withArtifact a.rendered).trans (hwritten db₂ hinstall)

lemma teardown_of_none (hc : Contains db c) (hnone : ∀ a ∈ c.artifacts, a.owner ≠ owner) :
    teardown db owner = .ok (db, 0) := by
  obtain ⟨as, has, hperm⟩ := hc.artifactsOf_isOk owner
  have hempty : c.artifacts.filter (fun a => a.owner = owner) = [] :=
    List.filter_eq_nil_iff.mpr fun a ha howner => hnone a ha (of_decide_eq_true howner)
  rw [hempty, List.perm_nil] at hperm
  subst hperm
  unfold teardown
  rw [ofStore_eq_ok.mpr has, ok_bind]
  rfl

/-- What is rendered for a definition without artifacts is installed exactly if each part can be
after those before it. -/
lemma replace_iff {xs : List Rendered} {now : Instant} (hc : Contains db c)
    (hnone : ∀ a ∈ c.artifacts, a.owner ≠ owner) (hnow : now.IsRegular)
    (hcreated : ∀ x ∈ xs, ∀ sql, x.body = .view sql →
      x.kind.isView = true ∧ Database.CreatesView x.identifier sql)
    (hwrites : Writes artifactTable.name sim db) :
    ((Admin.replace db owner (xs.map (ArtifactRecord.ofRendered owner now))).isOk = true ↔
      ∀ done x rest, xs = done ++ x :: rest → (sim.withArtifacts done).CanInstall x) ∧
    ∀ db' removed, Admin.replace db owner (xs.map (ArtifactRecord.ofRendered owner now)) =
        .ok (db', removed) →
      Contains db' ((xs.map (ArtifactRecord.ofRendered owner now)).foldl Contents.saveArtifact c) ∧
      Writes artifactTable.name (sim.withArtifacts xs) db' := by
  have hrendered : ∀ xs : List Rendered,
      (xs.map (ArtifactRecord.ofRendered owner now)).map ArtifactRecord.rendered = xs :=
    fun xs => by rw [List.map_map]; exact List.map_id xs
  have hregular : ∀ a ∈ xs.map (ArtifactRecord.ofRendered owner now), a.createdAt.IsRegular :=
    List.forall_mem_map.mpr fun _ _ => hnow
  obtain ⟨hok, hwritten⟩ :=
    installAll_iff hc hregular (List.forall_mem_map.mpr hcreated) hwrites
  rw [hrendered] at hwritten
  unfold Admin.replace
  rw [teardown_of_none hc hnone, ok_bind]
  refine ⟨(isOk_map fun _ _ => rfl).trans (hok.trans ⟨?_, ?_⟩), fun db' removed h => ?_⟩
  · rintro hall done x rest rfl
    have hone := hall (done.map (ArtifactRecord.ofRendered owner now))
      (ArtifactRecord.ofRendered owner now x) (rest.map (ArtifactRecord.ofRendered owner now))
      (by rw [List.map_append, List.map_cons])
    rwa [hrendered] at hone
  · intro hall done a rest heq
    obtain ⟨before, after, rfl, rfl, hafter⟩ := List.map_eq_append_iff.mp heq
    obtain ⟨x, after, rfl, rfl, -⟩ := List.map_eq_cons_iff.mp hafter
    rw [hrendered]
    exact hall before x after rfl
  · obtain ⟨installed, hinstalled, h⟩ := bind_eq_ok.mp h
    cases h
    exact hwritten _ hinstalled

end Admin

end RowPolicy
