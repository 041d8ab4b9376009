import RowPolicy.Proofs.Access.Keys

/-!
# Rows that writes address

An update or a deletion through a guard reaches the row that has the given key and that the rule
permits as it was before, and no other row. If there is no such row, the caller is told that it was
not found, for whatever reason.
-/

namespace RowPolicy

open Sql Store

/-! ### Parameters -/

namespace Sql

lemma params_restriction (table key : String) (i : Nat) {e : Expr} (h : e.params = 0) :
    (restriction table key i e).params = i + 1 := by
  simp [restriction, Expr.params, Expr.paramsAll, h]

lemma paramsAll_zipIdx (columns : List String) (i : Nat) :
    Expr.paramsAll ((columns.zipIdx i).map fun p => .param p.2) ≤ i + columns.length := by
  induction columns generalizing i with
  | nil => exact Nat.zero_le _
  | cons c columns ih =>
    have hrest := ih (i + 1)
    rw [List.zipIdx_cons, List.map_cons, Expr.paramsAll, Expr.params, List.length_cons]
    omega

/-- A restricted update has a parameter for each change and one for the key. -/
lemma params_restrictedUpdate (table key : String) (columns : List String) {e : Expr}
    (h : e.params = 0) :
    (Statement.update table (changesOf columns)
      (restriction table key columns.length e)).params = columns.length + 1 := by
  have hchanges := paramsAll_zipIdx columns 0
  rw [Statement.params, params_restriction table key _ h, changesOf, List.map_map]
  change max (Expr.paramsAll (columns.zipIdx.map fun p => .param p.2)) _ = _
  omega

end Sql

/-! ### Statements that are run -/

namespace Database

variable {db : Database} {t : Table} {env : Env} {row : Row}

lemma bindChanges_known {b : Binder} {s : Scope} {changes : List (String × Nat)}
    (h : ∀ c ∈ changes, ∃ i, t.columnIndex? c.1 = some i) :
    bindChanges b t s (changes.map fun c => (c.1, .param c.2)) =
      .ok (changes.map fun c => (t.columnIndex? c.1, .param c.2)) := by
  induction changes with
  | nil => rfl
  | cons c changes ih =>
    obtain ⟨⟨i, hi⟩, hrest⟩ := List.forall_mem_cons.mp h
    rw [List.map_cons, bindChanges, target, hi]
    simp only [Binder.expr, ok_bind]
    rw [ih hrest, ok_bind, List.map_cons, hi]
    rfl

lemma updateRows_one {changes : List (String × Nat)}
    (h : ∀ c ∈ changes, ∃ i, t.columnIndex? c.1 = some i) :
    updateRows db env (changes.map fun c => (t.columnIndex? c.1, .param c.2)) t [row] =
      t.update row (t.assignments (changes.map fun c => (c.1, env.params.getD c.2 .null)))
        none := by
  rw [updateRows]
  have hgiven : ((changes.map fun c => (t.columnIndex? c.1, BoundExpr.param c.2)).map
      fun c => (c.1, c.2.eval db env [row.frame])).filterMap
        (fun c => c.1.map fun i => (i, c.2)) =
      t.assignments (changes.map fun c => (c.1, env.params.getD c.2 .null)) := by
    rw [List.map_map, List.filterMap_map, Table.assignments, List.filterMap_map]
    rfl
  have hid : ((changes.map fun c => (t.columnIndex? c.1, BoundExpr.param c.2)).map
      fun c => (c.1, c.2.eval db env [row.frame])).find? (fun c => c.1.isNone) = none := by
    rw [List.map_map, List.find?_eq_none]
    intro value hvalue
    obtain ⟨c, hc, rfl⟩ := List.mem_map.mp hvalue
    obtain ⟨i, hi⟩ := h c hc
    simp [hi]
  simp only [hgiven, hid, Option.map_none]
  cases t.update row _ none <;> rfl

section

variable {filter : BoundExpr} {changes : List (Option Nat × BoundExpr)}

lemma run_update_eq (ht : db.table? t.name = some t) :
    db.run env (.update t.name changes filter) =
      (updateRows db env changes t (db.matching env t filter)).map fun t' =>
        (db.setTable t', ⟨(db.matching env t filter).length, none⟩) := by
  rw [run.eq_def]
  dsimp only
  rw [writable, ht, ok_bind]
  cases updateRows db env changes t (db.matching env t filter) <;> rfl

lemma run_delete_eq (ht : db.table? t.name = some t) :
    db.run env (.delete t.name filter) =
      .ok (db.setTable { t with
          rows := t.rows.filter fun r => !(db.matching env t filter).contains r },
        ⟨(db.matching env t filter).length, none⟩) := by
  rw [run.eq_def]
  dsimp only
  rw [writable, ht, ok_bind]
  rfl

end

end Database

/-! ### Guards of updates and deletions -/

variable {p : Prepared}

namespace Request

def storable (changes : Json.Fields) : List (String × Cell) :=
  changes.filterMap fun c => (Cell.ofJson? c.2).map fun x => (c.1, x)

lemma ofJson?_of_cellOf {column : String} {value : Json} {x : Cell}
    (h : cellOf column value = .ok x) : Cell.ofJson? value = some x := by
  unfold cellOf at h
  split at h
  next hx =>
    cases h
    exact hx
  next => cases h

lemma cellsOf_eq {changes : Json.Fields} (h : ∀ c ∈ changes, (Cell.ofJson? c.2).isSome = true) :
    cellsOf changes = .ok ((storable changes).map Prod.snd) ∧
      (storable changes).map Prod.fst = changes.map Prod.fst := by
  induction changes with
  | nil => exact ⟨rfl, rfl⟩
  | cons c changes ih =>
    obtain ⟨hc, hrest⟩ := List.forall_mem_cons.mp h
    obtain ⟨hcells, hnames⟩ := ih hrest
    obtain ⟨column, value⟩ := c
    obtain ⟨x, hx⟩ := Option.isSome_iff_exists.mp hc
    have hcons : storable ((column, value) :: changes) = (column, x) :: storable changes := by
      simp [storable, hx]
    have hcell : cellOf column value = .ok x := by rw [cellOf, hx]
    rw [cellsOf] at hcells
    refine ⟨?_, by rw [hcons, List.map_cons, List.map_cons, hnames]⟩
    rw [cellsOf, List.mapM_cons]
    dsimp only
    rw [hcell, ok_bind, hcells, hcons]
    rfl

lemma storable_of_cellsOf {changes : Json.Fields} {cells : List Cell}
    (h : cellsOf changes = .ok cells) : ∀ c ∈ changes, (Cell.ofJson? c.2).isSome = true := by
  induction changes generalizing cells with
  | nil => simp
  | cons c changes ih =>
    obtain ⟨column, value⟩ := c
    rw [cellsOf, List.mapM_cons] at h
    obtain ⟨x, hx, h⟩ := bind_eq_ok.mp h
    obtain ⟨rest, hrest, -⟩ := bind_eq_ok.mp h
    refine List.forall_mem_cons.mpr ⟨?_, ih hrest⟩
    exact Option.isSome_iff_exists.mpr ⟨x, ofJson?_of_cellOf hx⟩

lemma checkColumns_eq_ok {q : Request} {known : List String} {row : Json.Fields} :
    q.checkColumns known row = .ok () ↔ ∀ c ∈ row, known.contains c.1 = true := by
  rw [checkColumns]
  split
  next c hc =>
    refine iff_of_false (by rintro ⟨⟩) fun hall => ?_
    obtain ⟨p, hp, rfl⟩ := List.mem_map.mp (List.mem_of_find?_eq_some hc)
    have hunknown := List.find?_some hc
    rw [hall p hp] at hunknown
    cases hunknown
  next hnone =>
    refine iff_of_true rfl fun c hc => ?_
    simpa using List.find?_eq_none.mp hnone c.1 (List.mem_map_of_mem hc)

variable {sql : String} {params : List Cell}

lemma execute_eq {q : Request} {db : Database} (hp : db.prepare true sql = .ok p)
    (hparams : p.params = params.length) (hbusy : q.busy = false) :
    q.execute db sql params = ofStorage (db.run (q.env params) p.statement) := by
  have hcheck : Database.checkParams p (q.env params) = .ok () :=
    if_pos (beq_iff_eq.mpr hparams)
  rw [execute, hp]
  simp only [ofStorage, Except.mapError, ok_bind, hcheck, hbusy, Bool.false_eq_true, if_false]

lemma prepared_of_execute {q : Request} {db : Database} {result : Database × Database.Effect}
    (h : q.execute db sql params = .ok result) :
    ∃ p, db.prepare true sql = .ok p ∧ q.busy = false := by
  rw [execute] at h
  obtain ⟨p, hp, h⟩ := bind_eq_ok.mp h
  obtain ⟨_, -, h⟩ := bind_eq_ok.mp h
  cases hbusy : q.busy with
  | false => exact ⟨p, ofStorage_eq_ok.mp hp, rfl⟩
  | true =>
    rw [hbusy] at h
    cases h

lemma execute_error {q : Request} {db : Database} (h : ∀ p, db.prepare true sql ≠ .ok p) :
    ∃ e, q.execute db sql params = .error (.store (.storage e)) := by
  rw [execute]
  cases hp : db.prepare true sql with
  | error e => exact ⟨e, rfl⟩
  | ok p => exact absurd hp (h p)

lemma map_zipIdx_params (changes : List (String × Cell)) (x : Cell) :
    ((changes.map Prod.fst).zipIdx.map fun c =>
      (c.1, (changes.map Prod.snd ++ [x]).getD c.2 .null)) = changes := by
  refine List.ext_getElem (by simp) fun i hi hi' => ?_
  rw [List.length_map, List.length_zipIdx, List.length_map] at hi
  simp [List.getElem?_append_left, hi]

end Request

/-- A guard restricts an operation on a table: it is found, and with it the key of the table and a
condition. -/
structure Naming.Restricts (n : Naming) (q : Request) (db : Database) (operation : Operation)
    (t : Table) (key : String) (f : Fragment) : Prop where
  guard : q.restrictGuard db operation =
    .ok (t.shape.columns, key, n.fragment (quoteName q.table) f)
  finite : f.IsFinite
  table : db.table? q.table = some t
  name : t.name = q.table
  wellFormed : t.isWellFormed = true
  hasKey : (t.scope t.name).Has key
  closed : ∀ v ∈ db.views, v.query.params = 0

/-- The rows that a guard lets a request reach: those that have the key and meet the condition. -/
def Request.Reaches (q : Request) (n : Naming) (db : Database) (t : Table) (key : String)
    (f : Fragment) (x : Cell) (row : Row) : Prop :=
  t.HasKey key x row ∧ f.IsTrue (q.surroundings db n) (t.values row)

namespace Naming.Restricts

variable {n : Naming} {q : Request} {db : Database} {operation : Operation} {t : Table}
  {key : String} {f : Fragment} {x : Cell} {row : Row}

/-- The condition of the statement of a guard can be bound exactly if that of the guard can. -/
lemma filter_isOk (h : n.Restricts q db operation t key f) {e : Sql.Expr}
    (he : f.Denotes n t.name e) (i : Nat) :
    ((db.binder true).expr [t.scope t.name] (restriction t.name key i e)).isOk = true ↔
      f.Resolves (db.binder true) n (t.scope t.name) := by
  have hfind : (db.binder true).find t.name = _ := Database.find_table (h.name ▸ h.table)
  have hfits := Binder.claimsFit_of_find hfind n
  have hequation : ((db.binder true).expr [t.scope t.name]
      (.compare .eq (.column (some t.name) key false) (.param i))).isOk = true :=
    Binder.equation_isOk.mpr h.hasKey
  rw [restriction, Binder.expr, Binder.exprs, Binder.exprs, Binder.exprs]
  refine (isOk_map fun _ _ => rfl).trans
    ((isOk_bind (p := f.Resolves (db.binder true) n (t.scope t.name)) fun _ _ => ?_).trans
      (and_iff_right hequation))
  refine (isOk_map fun _ _ => rfl).trans ((isOk_map fun _ _ => rfl).trans ?_)
  exact Binder.fragment_isOk hfits he

/-- The condition of the statement of a guard is true for the rows that the guard lets the request
reach. -/
lemma filter_eq_true (h : n.Restricts q db operation t key f) {e : Sql.Expr}
    (he : f.Denotes n t.name e) {i : Nat} {filter : BoundExpr} {a : Affinity}
    (hfilter : (db.binder true).expr [t.scope t.name] (restriction t.name key i e) =
      .ok (filter, a)) (params : List Cell) (row : Row) :
    (filter.eval db (q.env params) [row.frame]).truth = some true ↔
      q.Reaches n db t key f (params.getD i .null) row := by
  rw [Database.restriction_eq_true (h.name ▸ h.table) he hfilter, Request.Reaches,
    Request.surroundings, Request.env, Request.env,
    Binder.surroundings_fixed (Database.binder_isFixed h.closed) params []]

lemma exists_place (h : n.Restricts q db operation t key f) {column : String}
    (hcolumn : t.shape.hasColumn column = true) : ∃ i, t.columnIndex? column = some i := by
  obtain ⟨i, hi, rfl⟩ := Table.exists_of_hasColumn hcolumn
  exact ⟨i, Table.columnIndex?_eq h.wellFormed hi⟩

/-- The update of a guard is prepared: its changes go to the places of their columns. -/
lemma prepare_update (h : n.Restricts q db .update t key f)
    (hresolves : f.Resolves (db.binder true) n (t.scope t.name)) {columns : List String}
    (hne : columns ≠ []) (hknown : ∀ c ∈ columns, t.shape.hasColumn c = true)
    (hproper : IsProper (Sql.update q.table key columns (n.fragment (quoteName q.table) f))) :
    ∃ filter, db.prepare true (Sql.update q.table key columns (n.fragment (quoteName q.table) f)) =
        .ok ⟨.update t.name (columns.zipIdx.map fun c => (t.columnIndex? c.1, .param c.2)) filter,
          columns.length + 1, false⟩ ∧
      ∀ params row, (filter.eval db (q.env params) [Row.frame row]).truth = some true ↔
        q.Reaches n db t key f (params.getD columns.length .null) row := by
  rcases parse_restrictedUpdate n q.table key hne h.finite with
    ⟨-, _, hparse, e, rfl, he⟩ | ⟨hcut, -⟩
  · have he' : f.Denotes n t.name e := h.name ▸ he
    obtain ⟨⟨filter, a⟩, hfilter⟩ := isOk_iff.mp ((h.filter_isOk he' columns.length).mpr hresolves)
    refine ⟨filter, ?_, h.filter_eq_true he' hfilter⟩
    have hchanges : Database.bindChanges (db.binder true) t (Database.writeScope t q.table)
        (changesOf columns) = _ := Database.bindChanges_known fun c hc =>
      h.exists_place (hknown c.1 (List.fst_mem_of_mem_zipIdx hc))
    have hscope : (db.binder true).expr [Database.writeScope t q.table]
        (restriction q.table key columns.length e) = .ok (filter, a) := h.name ▸ hfilter
    rw [Database.prepare, hparse]
    dsimp only
    rw [Database.prepareStatement.eq_def, if_pos ((isShallow_iff hparse).mp hproper.shallow),
      Database.bindStatement, Database.writable, h.table, ok_bind]
    dsimp only
    rw [hchanges, ok_bind, hscope, ok_bind,
      params_restrictedUpdate q.table key columns (Fragment.params_of_denotes he)]
    rfl
  · exact absurd hproper.whole hcut

lemma prepare_delete (h : n.Restricts q db .delete t key f)
    (hresolves : f.Resolves (db.binder true) n (t.scope t.name))
    (hproper : IsProper (Sql.delete q.table key (n.fragment (quoteName q.table) f))) :
    ∃ filter, db.prepare true (Sql.delete q.table key (n.fragment (quoteName q.table) f)) =
        .ok ⟨.delete t.name filter, 1, false⟩ ∧
      ∀ params row, (filter.eval db (q.env params) [Row.frame row]).truth = some true ↔
        q.Reaches n db t key f (params.getD 0 .null) row := by
  rcases parse_restrictedDelete n q.table key h.finite with
    ⟨-, _, hparse, e, rfl, he⟩ | ⟨hcut, -⟩
  · have he' : f.Denotes n t.name e := h.name ▸ he
    obtain ⟨⟨filter, a⟩, hfilter⟩ := isOk_iff.mp ((h.filter_isOk he' 0).mpr hresolves)
    refine ⟨filter, ?_, h.filter_eq_true he' hfilter⟩
    have hscope : (db.binder true).expr [Database.writeScope t q.table]
        (restriction q.table key 0 e) = .ok (filter, a) := h.name ▸ hfilter
    rw [Database.prepare, hparse]
    dsimp only
    rw [Database.prepareStatement.eq_def, if_pos ((isShallow_iff hparse).mp hproper.shallow),
      Database.bindStatement, Database.writable, h.table, ok_bind, hscope, ok_bind,
      Statement.params, params_restriction q.table key 0 (Fragment.params_of_denotes he)]
    rfl
  · exact absurd hproper.whole hcut

lemma of_prepare_update (h : n.Restricts q db .update t key f) {columns : List String}
    (hne : columns ≠ [])
    (hp : db.prepare true (Sql.update q.table key columns (n.fragment (quoteName q.table) f)) =
      .ok p) :
    f.Resolves (db.binder true) n (t.scope t.name) ∧
      IsProper (Sql.update q.table key columns (n.fragment (quoteName q.table) f)) := by
  obtain ⟨_, bound, ⟨e, rfl, he⟩, hproper, hbound, -⟩ := Database.prepare_parsesAs
    (parse_restrictedUpdate n q.table key hne h.finite) hp
  rw [Database.bindStatement, Database.writable, h.table, ok_bind] at hbound
  obtain ⟨_, -, hbound⟩ := bind_eq_ok.mp hbound
  obtain ⟨found, hfound, -⟩ := bind_eq_ok.mp hbound
  rw [← h.name] at he hfound
  exact ⟨(h.filter_isOk he _).mp (isOk_iff.mpr ⟨found, hfound⟩), hproper⟩

lemma of_prepare_delete (h : n.Restricts q db .delete t key f)
    (hp : db.prepare true (Sql.delete q.table key (n.fragment (quoteName q.table) f)) = .ok p) :
    f.Resolves (db.binder true) n (t.scope t.name) ∧
      IsProper (Sql.delete q.table key (n.fragment (quoteName q.table) f)) := by
  obtain ⟨_, bound, ⟨e, rfl, he⟩, hproper, hbound, -⟩ := Database.prepare_parsesAs
    (parse_restrictedDelete n q.table key h.finite) hp
  rw [Database.bindStatement, Database.writable, h.table, ok_bind] at hbound
  obtain ⟨found, hfound, -⟩ := bind_eq_ok.mp hbound
  rw [← h.name] at he hfound
  exact ⟨(h.filter_isOk he _).mp (isOk_iff.mpr ⟨found, hfound⟩), hproper⟩

section

variable {keyValue : Json} {changes : Json.Fields}

lemma update_eq (h : n.Restricts q db .update t key f)
    (hresolves : f.Resolves (db.binder true) n (t.scope t.name)) (hbusy : q.busy = false)
    (hkey : Cell.ofJson? keyValue = some x) (hne : changes ≠ [])
    (hknown : ∀ c ∈ changes, t.shape.hasColumn c.1 = true)
    (hstorable : ∀ c ∈ changes, (Cell.ofJson? c.2).isSome = true)
    (hproper : IsProper (Sql.update q.table key (changes.map Prod.fst)
      (n.fragment (quoteName q.table) f))) :
    ∃ rows, (∀ row, row ∈ rows ↔ row ∈ t.rows ∧ q.Reaches n db t key f x row) ∧
      rows.Sublist t.rows ∧
      (rows = [] → q.update db keyValue changes = .error (.notFound q.table)) ∧
      ∀ row, rows = [row] → q.update db keyValue changes =
        (Request.ofStorage (t.update row (t.assignments (Request.storable changes)) none)).map
          fun t' => (db.setTable t', 1) := by
  obtain ⟨hcells, hnames⟩ := Request.cellsOf_eq hstorable
  have hcell : Request.cellOf key keyValue = .ok x := by rw [Request.cellOf, hkey]
  have hcolumns : ∀ c ∈ changes.map Prod.fst, t.shape.hasColumn c = true :=
    List.forall_mem_map.mpr hknown
  have hlength : ((Request.storable changes).map Prod.snd).length =
      (changes.map Prod.fst).length := by
    rw [← hnames, List.length_map, List.length_map]
  obtain ⟨filter, hprepare, hfilter⟩ :=
    h.prepare_update hresolves (by simpa using hne) hcolumns hproper
  have hreaches := hfilter ((Request.storable changes).map Prod.snd ++ [x])
  rw [List.getD_eq_getElem?_getD, ← hlength, List.getElem?_concat_length, Option.getD_some]
    at hreaches
  -- The parameters are the new values and, behind them, the key.
  have hupdate : q.update db keyValue changes = (Request.ofStorage (db.run
      (q.env ((Request.storable changes).map Prod.snd ++ [x])) (.update t.name
        ((changes.map Prod.fst).zipIdx.map fun c => (t.columnIndex? c.1, .param c.2)) filter))
      >>= fun result => q.finish result.1 result.2) := by
    rw [Request.update, h.guard, ok_bind]
    dsimp only
    rw [if_neg (by simpa using hne), Request.checkColumns_eq_ok.mpr hknown, ok_bind, hcells,
      ok_bind, hcell, ok_bind,
      Request.execute_eq hprepare (by rw [List.length_append, hlength]; rfl) hbusy]
  have htable : db.table? t.name = some t := h.name ▸ h.table
  rw [Database.run_update_eq htable] at hupdate
  refine ⟨db.matching (q.env ((Request.storable changes).map Prod.snd ++ [x])) t filter,
    fun row => ?_, List.filter_sublist, fun hrows => ?_, fun row hrows => ?_⟩
  · rw [Database.matching, List.mem_filter, beq_iff_eq, hreaches]
  · rw [hupdate, hrows]
    rfl
  · have hplaces : ∀ c ∈ (changes.map Prod.fst).zipIdx, ∃ i, t.columnIndex? c.1 = some i :=
      fun c hc => h.exists_place (hcolumns c.1 (List.fst_mem_of_mem_zipIdx hc))
    rw [hupdate, hrows, Database.updateRows_one hplaces, ← hnames, Request.env,
      Request.map_zipIdx_params]
    cases t.update row (t.assignments (Request.storable changes)) none <;> rfl

lemma delete_eq (h : n.Restricts q db .delete t key f)
    (hresolves : f.Resolves (db.binder true) n (t.scope t.name)) (hbusy : q.busy = false)
    (hkey : Cell.ofJson? keyValue = some x)
    (hproper : IsProper (Sql.delete q.table key (n.fragment (quoteName q.table) f))) :
    ∃ rows, (∀ row, row ∈ rows ↔ row ∈ t.rows ∧ q.Reaches n db t key f x row) ∧
      rows.Sublist t.rows ∧
      (rows = [] → q.delete db keyValue = .error (.notFound q.table)) ∧
      ∀ row, rows = [row] → q.delete db keyValue =
        .ok (db.setTable { t with rows := t.rows.filter fun other => other != row }, 1) := by
  have hcell : Request.cellOf key keyValue = .ok x := by rw [Request.cellOf, hkey]
  obtain ⟨filter, hprepare, hfilter⟩ := h.prepare_delete hresolves hproper
  have htable : db.table? t.name = some t := h.name ▸ h.table
  have hdelete : q.delete db keyValue = (Request.ofStorage (db.run (q.env [x])
      (.delete t.name filter)) >>= fun result => q.finish result.1 result.2) := by
    rw [Request.delete, h.guard, ok_bind]
    dsimp only
    rw [hcell, ok_bind, Request.execute_eq hprepare rfl hbusy]
  rw [Database.run_delete_eq htable] at hdelete
  refine ⟨db.matching (q.env [x]) t filter, fun row => ?_, List.filter_sublist, fun hrows => ?_,
    fun row hrows => ?_⟩
  · rw [Database.matching, List.mem_filter, beq_iff_eq]
    exact and_congr_right fun _ => hfilter [x] row
  · rw [hdelete, hrows]
    rfl
  · rw [hdelete, hrows]
    have hkept : ∀ other : Row, (!List.contains [row] other) = (other != row) := fun other => by
      rw [Bool.eq_iff_iff]
      simp
    simp only [hkept]
    rfl

lemma of_update (h : n.Restricts q db .update t key f) {result : Database × Nat}
    (hdone : q.update db keyValue changes = .ok result) :
    f.Resolves (db.binder true) n (t.scope t.name) ∧ q.busy = false ∧
      (∃ x, Cell.ofJson? keyValue = some x) ∧ changes ≠ [] ∧
      (∀ c ∈ changes, t.shape.hasColumn c.1 = true) ∧
      (∀ c ∈ changes, (Cell.ofJson? c.2).isSome = true) ∧
      IsProper (Sql.update q.table key (changes.map Prod.fst)
        (n.fragment (quoteName q.table) f)) := by
  rw [Request.update, h.guard, ok_bind] at hdone
  dsimp only at hdone
  split at hdone
  next => cases hdone
  next hempty =>
    obtain ⟨_, hcolumns, hdone⟩ := bind_eq_ok.mp hdone
    obtain ⟨cells, hcells, hdone⟩ := bind_eq_ok.mp hdone
    obtain ⟨x, hx, hdone⟩ := bind_eq_ok.mp hdone
    obtain ⟨_, hexecute, -⟩ := bind_eq_ok.mp hdone
    have hne : changes ≠ [] := by simpa using hempty
    have hnames : changes.map Prod.fst ≠ [] := by simpa using hne
    obtain ⟨p, hp, hbusy⟩ := Request.prepared_of_execute hexecute
    obtain ⟨hresolves, hproper⟩ := h.of_prepare_update hnames hp
    exact ⟨hresolves, hbusy, ⟨x, Request.ofJson?_of_cellOf hx⟩, hne,
      Request.checkColumns_eq_ok.mp hcolumns, Request.storable_of_cellsOf hcells, hproper⟩

lemma of_delete (h : n.Restricts q db .delete t key f) {result : Database × Nat}
    (hdone : q.delete db keyValue = .ok result) :
    f.Resolves (db.binder true) n (t.scope t.name) ∧ q.busy = false ∧
      (∃ x, Cell.ofJson? keyValue = some x) ∧
      IsProper (Sql.delete q.table key (n.fragment (quoteName q.table) f)) := by
  rw [Request.delete, h.guard, ok_bind] at hdone
  dsimp only at hdone
  obtain ⟨x, hx, hdone⟩ := bind_eq_ok.mp hdone
  obtain ⟨_, hexecute, -⟩ := bind_eq_ok.mp hdone
  obtain ⟨p, hp, hbusy⟩ := Request.prepared_of_execute hexecute
  obtain ⟨hresolves, hproper⟩ := h.of_prepare_delete hp
  exact ⟨hresolves, hbusy, ⟨x, Request.ofJson?_of_cellOf hx⟩, hproper⟩

lemma update_error (h : n.Restricts q db .update t key f)
    (hkey : Cell.ofJson? keyValue = some x) (hne : changes ≠ [])
    (hknown : ∀ c ∈ changes, t.shape.hasColumn c.1 = true)
    (hstorable : ∀ c ∈ changes, (Cell.ofJson? c.2).isSome = true)
    (hbroken : ¬ (f.Resolves (db.binder true) n (t.scope t.name) ∧
      IsProper (Sql.update q.table key (changes.map Prod.fst)
        (n.fragment (quoteName q.table) f)))) :
    ∃ e, q.update db keyValue changes = .error (.store (.storage e)) := by
  have hcell : Request.cellOf key keyValue = .ok x := by rw [Request.cellOf, hkey]
  have hnames : changes.map Prod.fst ≠ [] := by simpa using hne
  rw [Request.update, h.guard, ok_bind]
  dsimp only
  rw [if_neg (by simpa using hne), Request.checkColumns_eq_ok.mpr hknown, ok_bind,
    (Request.cellsOf_eq hstorable).1, ok_bind, hcell, ok_bind]
  obtain ⟨e, he⟩ := Request.execute_error fun p hp => hbroken (h.of_prepare_update hnames hp)
  exact ⟨e, by rw [he]; rfl⟩

lemma delete_error (h : n.Restricts q db .delete t key f)
    (hkey : Cell.ofJson? keyValue = some x)
    (hbroken : ¬ (f.Resolves (db.binder true) n (t.scope t.name) ∧
      IsProper (Sql.delete q.table key (n.fragment (quoteName q.table) f)))) :
    ∃ e, q.delete db keyValue = .error (.store (.storage e)) := by
  have hcell : Request.cellOf key keyValue = .ok x := by rw [Request.cellOf, hkey]
  rw [Request.delete, h.guard, ok_bind]
  dsimp only
  rw [hcell, ok_bind]
  obtain ⟨e, he⟩ := Request.execute_error fun p hp => hbroken (h.of_prepare_delete hp)
  exact ⟨e, by rw [he]; rfl⟩

end

/-- If a key belongs to one row at most, a guard lets a request reach one row or none. -/
lemma reached_cases (hkey : t.TellsApart key) (hnodup : t.rows.Nodup) {rows : List Row}
    (hrows : ∀ row, row ∈ rows ↔ row ∈ t.rows ∧ q.Reaches n db t key f x row)
    (hsub : rows.Sublist t.rows) :
    (rows = [] ∧ ∀ row ∈ t.rows, ¬ q.Reaches n db t key f x row) ∨
      ∃ row ∈ t.rows, q.Reaches n db t key f x row ∧
        (∀ other ∈ t.rows, t.HasKey key x other → other = row) ∧ rows = [row] := by
  cases rows with
  | nil => exact .inl ⟨rfl, fun row hrow hreaches => nomatch (hrows row).mpr ⟨hrow, hreaches⟩⟩
  | cons row rest =>
    obtain ⟨hrow, hreaches⟩ := (hrows row).mp List.mem_cons_self
    have honly : ∀ other ∈ t.rows, t.HasKey key x other → other = row := fun other hother hhas =>
      hkey x other hother row hrow hhas hreaches.1
    refine .inr ⟨row, hrow, hreaches, honly, ?_⟩
    obtain ⟨hnew, -⟩ := List.nodup_cons.mp (hnodup.sublist hsub)
    cases rest with
    | nil => rfl
    | cons other rest =>
      obtain ⟨hother, hreaches'⟩ := (hrows other).mp (List.mem_cons_of_mem _ List.mem_cons_self)
      exact absurd (honly other hother hreaches'.1 ▸ List.mem_cons_self) hnew

end Naming.Restricts

/-- What comes of an update of a row: one with the changes takes its place, or none can. -/
def Table.Updates (t : Table) (db : Database) (row : Row) (changes : List (String × Cell))
    (result : Accessed (Database × Nat)) : Prop :=
  (∃ t' row', result = .ok (db.setTable t', 1) ∧ t.Exchanged t' row row' ∧
    t.Replaces row row' changes ∧ t'.IsLawful) ∨
  ∃ e, result = .error (.store (.storage e)) ∧
    ∀ row', t.Replaces row row' changes → ¬ t.Admits row row'

lemma Table.IsLawful.updates {t : Table} {row : Row} {changes : List (String × Cell)}
    (h : t.IsLawful) (hw : t.isWellFormed = true) (hrow : row ∈ t.rows)
    (hknown : ∀ c ∈ changes, t.shape.hasColumn c.1 = true) (hnodup : (changes.map Prod.fst).Nodup)
    (db : Database) :
    t.Updates db row changes ((Request.ofStorage (t.update row (t.assignments changes) none)).map
      fun t' => (db.setTable t', 1)) := by
  cases hupdate : t.update row (t.assignments changes) none with
  | ok t' =>
    obtain ⟨row', hexchanged, hreplaces, hlawful⟩ := h.exchanged hw hrow hknown hnodup hupdate
    exact .inl ⟨t', row', rfl, hexchanged, hreplaces, hlawful⟩
  | error e =>
    refine .inr ⟨e, rfl, fun row' hreplaces hadmits => ?_⟩
    obtain ⟨t', ht'⟩ := h.update_isOk hw hrow hknown hnodup hreplaces hadmits
    cases hupdate.symm.trans ht'

namespace Naming.Restricts

variable {n : Naming} {q : Request} {db : Database} {t : Table} {key : String} {f : Fragment}
  {x : Cell} {keyValue : Json} {changes : Json.Fields}

/-- An update changes the row that it reaches, or none is found. -/
lemma update_cases (h : n.Restricts q db .update t key f) (hlawful : t.IsLawful)
    (hapart : t.TellsApart key) (hresolves : f.Resolves (db.binder true) n (t.scope t.name))
    (hbusy : q.busy = false) (hkey : Cell.ofJson? keyValue = some x) (hne : changes ≠ [])
    (hnodup : (changes.map Prod.fst).Nodup)
    (hknown : ∀ c ∈ changes, t.shape.hasColumn c.1 = true)
    (hstorable : ∀ c ∈ changes, (Cell.ofJson? c.2).isSome = true)
    (hproper : IsProper (Sql.update q.table key (changes.map Prod.fst)
      (n.fragment (quoteName q.table) f))) :
    (q.update db keyValue changes = .error (.notFound q.table) ∧
        ∀ row ∈ t.rows, ¬ q.Reaches n db t key f x row) ∨
      ∃ row ∈ t.rows, q.Reaches n db t key f x row ∧
        (∀ other ∈ t.rows, t.HasKey key x other → other = row) ∧
        t.Updates db row (Request.storable changes) (q.update db keyValue changes) := by
  obtain ⟨rows, hrows, hsub, hnone, hone⟩ :=
    h.update_eq hresolves hbusy hkey hne hknown hstorable hproper
  obtain ⟨hnil, hunreached⟩ | ⟨row, hrow, hreaches, honly, hsingle⟩ :=
    reached_cases hapart hlawful.nodup hrows hsub
  · exact .inl ⟨hnone hnil, hunreached⟩
  · have hnames := (Request.cellsOf_eq hstorable).2
    have hcolumns : ∀ c ∈ Request.storable changes, t.shape.hasColumn c.1 = true := by
      intro c hc
      obtain ⟨c', hc', heq⟩ := List.mem_map.mp (hnames ▸ List.mem_map_of_mem (f := Prod.fst) hc)
      exact heq ▸ hknown c' hc'
    refine .inr ⟨row, hrow, hreaches, honly, ?_⟩
    rw [hone row hsingle]
    exact hlawful.updates h.wellFormed hrow hcolumns (hnames ▸ hnodup) db

lemma delete_cases (h : n.Restricts q db .delete t key f) (hlawful : t.IsLawful)
    (hapart : t.TellsApart key) (hresolves : f.Resolves (db.binder true) n (t.scope t.name))
    (hbusy : q.busy = false) (hkey : Cell.ofJson? keyValue = some x)
    (hproper : IsProper (Sql.delete q.table key (n.fragment (quoteName q.table) f))) :
    (q.delete db keyValue = .error (.notFound q.table) ∧
        ∀ row ∈ t.rows, ¬ q.Reaches n db t key f x row) ∨
      ∃ row ∈ t.rows, q.Reaches n db t key f x row ∧
        (∀ other ∈ t.rows, t.HasKey key x other → other = row) ∧
        q.delete db keyValue = .ok (db.setTable { t with rows := t.rows.erase row }, 1) := by
  obtain ⟨rows, hrows, hsub, hnone, hone⟩ := h.delete_eq hresolves hbusy hkey hproper
  obtain ⟨hnil, hunreached⟩ | ⟨row, hrow, hreaches, honly, hsingle⟩ :=
    reached_cases hapart hlawful.nodup hrows hsub
  · exact .inl ⟨hnone hnil, hunreached⟩
  · refine .inr ⟨row, hrow, hreaches, honly, ?_⟩
    rw [hone row hsingle, hlawful.nodup.erase_eq_filter]

end Naming.Restricts

end RowPolicy
