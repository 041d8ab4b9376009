import RowPolicy.Proofs.Access.Selection
import RowPolicy.Proofs.Database.Change
import RowPolicy.Schema

/-!
# Creates

A create stores the row first and checks the conditions of its rule then. So the row meets the rule
as the database stands with the row in it, and a claim that reads the guarded table may count the
row itself.
-/

namespace RowPolicy

open Sql Naming

/-! ### Insertions -/

namespace Database

variable {db db' : Database} {env : Env} {effect : Database.Effect} {t : Table}
  {targets : List (Option Nat)}

lemma writable_eq_ok {name : String} : db.writable name = .ok t ↔ db.table? name = some t := by
  unfold writable
  cases db.table? name <;> simp

lemma insertRows_one {cells : List Cell} {result : Table × Nat × Option Int}
    (h : insertRows t targets 0 none [cells] = .ok result) :
    ∃ given id t' rowId, t.insert given id = .ok (t', rowId) ∧
      result = (t', 1, if t.withoutRowId then none else some rowId) := by
  rw [insertRows] at h
  obtain ⟨⟨t', rowId⟩, hinsert, h⟩ := bind_eq_ok.mp h
  dsimp only at h
  rw [insertRows] at h
  cases h
  exact ⟨_, _, t', rowId, hinsert, rfl⟩

lemma run_insert {rows : Option BoundQuery}
    (hone : ∀ q, rows = some q → ∃ cells, q.rows db env [] = [cells])
    (ht : db.table? t.name = some t)
    (h : db.run env (.insert t.name targets rows) = .ok (db', effect)) :
    ∃ given id t' rowId, t.insert given id = .ok (t', rowId) ∧ db' = db.setTable t' ∧
      effect.lastRowId = if t.withoutRowId then none else some rowId := by
  rw [run.eq_def] at h
  dsimp only at h
  obtain ⟨u, hu, h⟩ := bind_eq_ok.mp h
  rw [writable_eq_ok, ht] at hu
  cases hu
  obtain ⟨⟨t', changed, last⟩, hrows, h⟩ := bind_eq_ok.mp h
  cases h
  have hcells : ∃ cells, insertRows t targets 0 none [cells] = .ok (t', changed, last) := by
    cases rows with
    | none => exact ⟨[], hrows⟩
    | some q =>
      obtain ⟨cells, hcells⟩ := hone q rfl
      exact ⟨cells, hcells ▸ hrows⟩
  obtain ⟨cells, hrows⟩ := hcells
  obtain ⟨given, id, u, rowId, hinsert, hresult⟩ := insertRows_one hrows
  cases hresult
  exact ⟨given, id, t', rowId, hinsert, rfl, rfl⟩

lemma exprs_params {b : Binder} (scopes : List Scope) (is : List Nat) :
    b.exprs scopes (is.map .param) = .ok (is.map .param) := by
  induction is with
  | nil => rw [List.map_nil, Binder.exprs, List.map_nil]
  | cons i rest ih =>
    rw [List.map_cons, Binder.exprs, Binder.expr, ih]
    rfl

lemma evalAll_params (frames : Frames) (is : List Nat) :
    BoundExpr.evalAll db env frames (is.map .param) = is.map fun i => env.params.getD i .null := by
  induction is with
  | nil => rw [List.map_nil, BoundExpr.evalAll, List.map_nil]
  | cons i rest ih => rw [List.map_cons, BoundExpr.evalAll, BoundExpr.eval, ih, List.map_cons]

lemma query_params {b : Binder} {is : List Nat} {bound : BoundQuery} {headings : List Heading}
    (h : b.query [] (.values [is.map .param]) = .ok (bound, headings)) :
    bound.rows db env [] = [is.map fun i => env.params.getD i .null] := by
  rw [Binder.query] at h
  obtain ⟨rows, hrows, h⟩ := bind_eq_ok.mp h
  cases h
  rw [Binder.valueRows, exprs_params, ok_bind] at hrows
  split at hrows
  next => cases hrows
  next =>
    rw [Binder.valueRows] at hrows
    cases hrows
    rw [BoundQuery.rows, BoundExpr.evalRows, BoundExpr.evalRows, evalAll_params]

lemma bindStatement_insert {hasPrincipal : Bool} {sql table : String} {columns : List String}
    {bound : BoundStatement}
    (h : db.bindStatement hasPrincipal sql (insertStatement table columns) = .ok bound) :
    ∃ t targets rows, db.table? table = some t ∧ bound = .insert t.name targets rows ∧
      ∀ q, rows = some q → ∀ env : Env,
        q.rows db env [] = [(List.range columns.length).map fun i => env.params.getD i .null] := by
  unfold insertStatement at h
  split at h
  next =>
    rw [bindStatement, bindInsert] at h
    obtain ⟨t, ht, h⟩ := bind_eq_ok.mp h
    cases h
    exact ⟨t, _, _, writable_eq_ok.mp ht, rfl, by rintro q ⟨⟩⟩
  next =>
    rw [bindStatement, bindInsert] at h
    obtain ⟨t, ht, h⟩ := bind_eq_ok.mp h
    obtain ⟨targets, -, h⟩ := bind_eq_ok.mp h
    obtain ⟨q, hq, h⟩ := bind_eq_ok.mp h
    cases h
    rw [bindRows] at hq
    obtain ⟨⟨bound, headings⟩, hbound, hq⟩ := bind_eq_ok.mp hq
    dsimp only at hq
    split at hq
    next => cases hq
    next =>
      cases hq
      refine ⟨t, targets, some q, writable_eq_ok.mp ht, rfl, fun q' hq' env => ?_⟩
      cases hq'
      exact query_params hbound

end Database

variable {conditions : List RenderedCondition}

namespace Request

variable {q : Request} {db db' : Database} {effect : Database.Effect} {row : Json.Fields}
  {columns : List String}

lemma insertRow_eq_ok (h : q.insertRow db columns row = .ok (db', effect)) :
    ∃ t given id t' rowId, db.table? q.table = some t ∧ t.insert given id = .ok (t', rowId) ∧
      db' = db.setTable t' ∧
      effect.lastRowId = if t.withoutRowId then none else some rowId := by
  rw [insertRow] at h
  obtain ⟨_, -, h⟩ := bind_eq_ok.mp h
  obtain ⟨cells, -, h⟩ := bind_eq_ok.mp h
  rw [execute] at h
  obtain ⟨p, hp, h⟩ := bind_eq_ok.mp h
  obtain ⟨_, -, h⟩ := bind_eq_ok.mp h
  split at h
  next => cases h
  next =>
    rw [ofStorage_eq_ok] at hp
    have hinsert := parse_insert q.table (row.map (·.1))
    obtain ⟨_, bound, rfl, -, hbound, hp⟩ := Database.prepare_parsesAs hinsert hp
    obtain ⟨t, targets, rows, ht, rfl, hone⟩ := Database.bindStatement_insert hbound
    have ht' : db.table? t.name = some t := by
      rw [Database.table?_congr (Database.sameName_of_table? ht), ht]
    rw [hp] at h
    obtain ⟨given, id, t', rowId, hinsert, hdb, heffect⟩ :=
      Database.run_insert (fun q' hq' => ⟨_, hone q' hq' _⟩) ht' (ofStorage_eq_ok.mp h)
    exact ⟨t, given, id, t', rowId, ht, hinsert, hdb, heffect⟩

/-! ### Judgement of the stored row -/

lemma judge_eq_ok {id : Int} (h : q.judge db id conditions = .ok ()) :
    ∀ c ∈ conditions, q.holds db (storedRowCondition c.sql q.table) [.int id] = .ok true := by
  induction conditions with
  | nil => simp
  | cons c rest ih =>
    rw [judge] at h
    obtain ⟨passed, hpassed, h⟩ := bind_eq_ok.mp h
    cases passed with
    | false => cases h
    | true => exact List.forall_mem_cons.mpr ⟨hpassed, ih h⟩

lemma createGuard_eq_ok (h : q.createGuard db = .ok (columns, conditions)) :
    ∃ record, q.artifact db .writeGuard .create = .ok (some record) ∧
      record.body = .createGuard columns conditions := by
  rw [createGuard] at h
  obtain ⟨found, hfound, h⟩ := bind_eq_ok.mp h
  cases found with
  | none => cases h
  | some record =>
    cases hbody : record.body with
    | createGuard columns conditions =>
      simp only [hbody] at h
      cases h
      exact ⟨record, hfound, hbody⟩
    | view _ | accessor _ _ _ | restrictGuard _ _ _ =>
      simp only [hbody] at h
      cases h

lemma createGuard_of_artifact {record : ArtifactRecord}
    (h : q.artifact db .writeGuard .create = .ok (some record))
    (hbody : record.body = .createGuard columns conditions) :
    q.createGuard db = .ok (columns, conditions) := by
  rw [createGuard, h, ok_bind]
  simp only [hbody]
  rfl

end Request

/-! ### The row with an id -/

/-- The name of the row id means the row id: a column of that name is the one that holds it. -/
def Table.NamesRowId (t : Table) : Prop :=
  ∀ i, t.columnIndex? "rowid" = some i →
    t.rowIdIndex? = some i ∧ ∀ r ∈ t.rows, r.cells[i]? = some (.int r.id)

lemma Table.withoutRowId_of_rowIdIndex? {t : Table} {i : Nat} (h : t.rowIdIndex? = some i) :
    t.withoutRowId = false := by
  unfold rowIdIndex? at h
  split at h
  next =>
    split at h
    next hid =>
      simp only [Bool.and_eq_true, Bool.not_eq_true'] at hid
      exact hid.1
    next => cases h
  next => cases h

/-- A row that is inserted holds its id in the column of that name. -/
lemma Table.NamesRowId.withRow {t : Table} (h : t.NamesRowId) (given : List (Nat × Cell))
    (rowId : Int) : (t.withRow ⟨rowId, t.insertedCells given rowId⟩).NamesRowId := by
  intro i hi
  have hi' : t.columnIndex? "rowid" = some i := hi
  obtain ⟨hindex, hrows⟩ := h i hi'
  refine ⟨hindex, fun r hr => ?_⟩
  rcases Table.mem_place.mp hr with rfl | hr
  · have hlt : i < t.columns.length := (List.findIdx?_eq_some_iff_getElem.mp hi').1
    simp [insertedCells, hindex, newCells, hlt]
  · exact hrows r hr

lemma Table.cell_rowid {t : Table} (h : t.NamesRowId) {name : String}
    (hhas : (t.scope name).Has "rowid") {r : Row} (hr : r ∈ t.rows)
    (hfull : r.cells.length = t.columns.length) :
    t.withoutRowId = false ∧ (t.scope name).cell r.frame "rowid" = .int r.id := by
  have hindex : (t.scope name).columns.findIdx? (fun c => Text.sameName c.1 "rowid") =
      t.columnIndex? "rowid" := List.findIdx?_map
  unfold Scope.Has Binder.columnOf? at hhas
  unfold Scope.cell Binder.columnOf?
  rw [hindex] at hhas ⊢
  cases hi : t.columnIndex? "rowid" with
  | some i =>
    obtain ⟨hrowid, hrows⟩ := h i hi
    have hlt : i < t.columns.length := (List.findIdx?_eq_some_iff_getElem.mp hi).1
    refine ⟨withoutRowId_of_rowIdIndex? hrowid, ?_⟩
    simp [scope, Database.writeScope, Database.tableHeadings, hlt, Row.frame,
      List.getElem?_append_left (hfull ▸ hlt), hrows r hr]
  | none =>
    have hname : Binder.isRowIdName "rowid" = true := by decide
    rw [hi, hname, Bool.and_true] at hhas
    simp only [hname, Bool.and_true]
    change ∃ found, (if (!t.withoutRowId) = true then _ else _) = some found at hhas
    cases hid : t.withoutRowId with
    | true => simp [hid] at hhas
    | false => simp [scope, Database.writeScope, Database.tableHeadings, hid, Row.frame, ← hfull]

lemma Cell.eq_of_compareWith_int {a : Affinity} {i j : Int}
    (h : Cell.compareWith .eq a (.int i) (.int j) = some true) : i = j := by
  rw [Cell.compareWith_eq_true] at h
  have hsame := h.2.2
  cases a <;> simpa [Cell.meet, Affinity.isNumeric, Cell.textToNumber, Cell.same, Cell.order,
    Cell.isText] using hsame

def Table.selects (t : Table) (id : Int) (r : Row) : Bool :=
  Cell.compareWith .eq ((t.values r).affinity "rowid") ((t.values r).cell "rowid") (.int id) ==
    some true

def Table.selected? (t : Table) (id : Int) : Option Row := t.rows.find? (t.selects id)

/-- A condition can be judged: no null character cuts its statement off, the statement is not too
deep, and its names can be bound. -/
structure GuardCondition.CanBeJudged (n : Naming) (db : Database) (t : Table)
    (g : GuardCondition) : Prop where
  proper : IsProper (storedRowCondition (n.fragment (quoteName t.name) g.fragment) t.name)
  resolves : g.fragment.Resolves (db.binder true) n (t.scope t.name)

namespace Table

variable {t : Table} {id : Int} {stored : Row}

lemma mem_of_selected? (h : t.selected? id = some stored) : stored ∈ t.rows :=
  List.mem_of_find?_eq_some h

lemma equals_of_selected? (h : t.selected? id = some stored) :
    Cell.Equals ((t.values stored).affinity "rowid") ((t.values stored).cell "rowid")
      (.int id) := by
  have hselects : t.selects id stored = true := List.find?_some h
  exact Cell.compareWith_eq_true.mp (beq_iff_eq.mp hselects)

lemma has_rowid_of_selected? (h : t.selected? id = some stored) :
    (t.scope t.name).Has "rowid" := by
  have hnull := (equals_of_selected? h).1
  cases hfound : Binder.columnOf? (t.scope t.name) "rowid" with
  | some found => exact ⟨found, hfound⟩
  | none => simp [values, Scope.values, Scope.cell, hfound] at hnull

/-- Where the name of the row id means the row id, the row that was inserted is the one that its id
selects. -/
lemma eq_of_selected?_withRow {given : List (Nat × Cell)} {rowId : Int} (hnames : t.NamesRowId)
    (hfull : t.IsFull)
    (hnew : t.withoutRowId = false → id = rowId ∧ ∀ other ∈ t.rows, other.id ≠ rowId)
    (h : (t.withRow ⟨rowId, t.insertedCells given rowId⟩).selected? id = some stored) :
    stored = ⟨rowId, t.insertedCells given rowId⟩ := by
  have hmem := mem_of_selected? h
  have hcells : stored.cells.length = t.columns.length := by
    obtain rfl | hold := mem_place.mp hmem
    · exact length_insertedCells t given rowId
    · exact hfull stored hold
  obtain ⟨hwithout, hcell⟩ :=
    cell_rowid (hnames.withRow given rowId) (has_rowid_of_selected? h) hmem hcells
  obtain ⟨rfl, hids⟩ := hnew hwithout
  have hequals := equals_of_selected? h
  change Cell.Equals _ ((Table.scope _ _).cell stored.frame "rowid") _ at hequals
  rw [hcell, ← Cell.compareWith_eq_true] at hequals
  obtain rfl | hold := mem_place.mp hmem
  · rfl
  · exact absurd (Cell.eq_of_compareWith_int hequals) (hids stored hold)

end Table

/-! ### Judging a condition -/

namespace Request

variable {q : Request} {db : Database} {n : Naming} {t : Table} {g : GuardCondition} {id : Int}

def judgeSql (n : Naming) (t : Table) (g : GuardCondition) : String :=
  storedRowCondition (n.fragment (quoteName t.name) g.fragment) t.name

/-- What the statement yields: the truth value of the condition for each row that the id selects. -/
lemma select_judgeSql (hfinite : g.fragment.IsFinite) (ht : db.table? t.name = some t)
    (hfixed : (db.binder true).IsFixed db) {names : List String} {rows : List (List Cell)}
    (h : db.select true (q.env [.int id]) (judgeSql n t g) = .ok (names, rows)) :
    g.CanBeJudged n db t ∧
      rows = (t.rows.filter (t.selects id)).map fun r =>
        [(g.fragment.truth ((db.binder true).surroundings db (q.env []) n)
          (t.values r)).toCell] := by
  unfold judgeSql at h
  obtain ⟨hnull, _, hparse, e, title, rfl, he⟩ | ⟨-, herror⟩ :=
    parse_storedRowCondition n t.name hfinite
  · obtain ⟨bound, headings, hbound, ⟨-, hdepth⟩, -, rfl⟩ := (Database.select_eq_ok hparse).mp h
    obtain ⟨source, columns, hasRowId, shown, filter, af, hfind, hshown, hfilter, rfl, rfl⟩ :=
      Binder.select_eq_ok.mp hbound
    have hfits := Binder.claimsFit_of_find hfind n
    rw [Database.find_table ht] at hfind
    cases hfind
    obtain ⟨x, a, hx, rfl⟩ := Binder.outputs_one.mp hshown
    have hresolves := (Binder.fragment_isOk hfits he).mp (isOk_iff.mpr ⟨_, hx⟩)
    refine ⟨⟨⟨hnull, (isShallow_iff hparse).mpr hdepth⟩, hresolves⟩, ?_⟩
    have hselects : ((fun row => (filter.eval db (q.env [.int id]) [row]).truth == some true) ∘
        Row.frame) = t.selects id := by
      funext r
      rw [Function.comp, Binder.equation_eq_ok (s := t.scope t.name) hfilter, Truth.truth_toCell]
      rfl
    rw [BoundQuery.rows_select, Database.rows_table ht, List.filter_map, hselects, List.map_map]
    refine List.map_congr_left fun r _ => ?_
    have htruth : x.eval db (q.env [.int id]) [r.frame] = _ :=
      Binder.fragment_eq_ok hfits he hx r.frame
    -- No view reads a parameter, so the id does not matter to the lookups.
    have hsurroundings : (db.binder true).surroundings db (q.env [.int id]) n =
        (db.binder true).surroundings db (q.env []) n :=
      Binder.surroundings_fixed hfixed [.int id] [] q.principal.id n
    rw [hsurroundings] at htruth
    simp only [Function.comp, List.map_cons, List.map_nil, BoundExpr.evalAll, htruth]
    rfl
  · exact absurd h (Database.select_error herror)

lemma exists_select_judgeSql (q : Request) (id : Int) (hfinite : g.fragment.IsFinite)
    (ht : db.table? t.name = some t) (hg : g.CanBeJudged n db t)
    (hrowid : (t.scope t.name).Has "rowid") :
    ∃ names rows, db.select true (q.env [.int id]) (judgeSql n t g) = .ok (names, rows) := by
  obtain ⟨-, _, hparse, e, title, rfl, he⟩ | ⟨hcut, -⟩ :=
    parse_storedRowCondition n t.name hfinite
  · have hfind : (db.binder true).find t.name = _ := Database.find_table ht
    have hfits := Binder.claimsFit_of_find hfind n
    obtain ⟨⟨x, a⟩, hx⟩ := isOk_iff.mp ((Binder.fragment_isOk hfits he).mpr hg.resolves)
    have houtputs : (db.binder true).outputs [t.scope t.name] [.expr e none title] = _ :=
      Binder.outputs_one.mpr ⟨x, a, hx, rfl⟩
    obtain ⟨⟨filter, af⟩, hfilter⟩ := isOk_iff.mp
      ((Binder.equation_isOk (b := db.binder true) (i := 0)).mpr hrowid)
    have hbound := Binder.select_eq_ok.mpr
      ⟨_, _, _, _, _, _, hfind, houtputs, hfilter, rfl, rfl⟩
    have hparams : (Query.select false [.expr e none title] (.named t.name none)
        (.compare .eq (.column (some t.name) "rowid" false) (.param 0))).params =
          (q.env [.int id]).params.length := by
      simp [env, Query.params, Output.paramsAll, Output.params, Source.params, Expr.params,
        Fragment.params_of_denotes he]
    have hdepth := (isShallow_iff hparse).mp hg.proper.shallow
    exact ⟨_, _, (Database.select_eq_ok hparse).mpr ⟨_, _, hbound, ⟨hparams, hdepth⟩, rfl, rfl⟩⟩
  · exact absurd hg.proper.whole hcut

/-- A condition is judged by the first row that the id selects. -/
lemma holds_judgeSql (hfinite : g.fragment.IsFinite) (ht : db.table? t.name = some t)
    (hfixed : (db.binder true).IsFixed db) {passed : Bool} :
    q.holds db (judgeSql n t g) [.int id] = .ok passed ↔
      g.CanBeJudged n db t ∧ ∃ stored, t.selected? id = some stored ∧
        (passed = true ↔
          g.fragment.IsTrue ((db.binder true).surroundings db (q.env []) n) (t.values stored)) := by
  have hselected : (t.rows.filter (t.selects id)).head? = t.selected? id := List.head?_filter
  constructor
  · intro h
    obtain ⟨⟨names, rows⟩, hselect, -⟩ := bind_eq_ok.mp h
    rw [ofStorage_eq_ok] at hselect
    obtain ⟨hjudged, rfl⟩ := select_judgeSql hfinite ht hfixed hselect
    refine ⟨hjudged, ?_⟩
    cases hrows : t.rows.filter (t.selects id) with
    | nil =>
      rw [hrows] at hselect
      rw [holds, ofStorage_eq_ok.mpr hselect, ok_bind] at h
      cases h
    | cons stored rest =>
      rw [hrows] at hselect hselected
      cases h.symm.trans (holds_of_select hselect)
      exact ⟨stored, hselected.symm, beq_iff_eq⟩
  · rintro ⟨hjudged, stored, hstored, hpassed⟩
    obtain ⟨names, rows, hselect⟩ := exists_select_judgeSql q id hfinite ht hjudged
      (Table.has_rowid_of_selected? hstored)
    obtain ⟨-, rfl⟩ := select_judgeSql hfinite ht hfixed hselect
    obtain ⟨rest, hrows⟩ := List.head?_eq_some_iff.mp (hselected.trans hstored)
    rw [hrows] at hselect
    rw [holds_of_select hselect]
    exact congrArg Except.ok (Bool.eq_iff_iff.mpr (beq_iff_eq.trans hpassed.symm))

end Request

lemma Client.create_inserted {c : Client} {q : Request} {db db' : Database} {row : Json.Fields}
    {columns : List String} {effect : Database.Effect}
    (hguard : q.createGuard db = .ok (columns, conditions))
    (hinsert : q.insertRow db columns row = .ok (db', effect)) :
    c.create q db row = ({ c with lastRowId := effect.lastRowId.getD c.lastRowId },
      (q.judge db' (effect.lastRowId.getD c.lastRowId) conditions).map fun _ =>
        (db', effect.lastRowId.getD c.lastRowId)) := by
  unfold create
  rw [hguard, ok_bind]
  dsimp only
  rw [hinsert]
  rfl

/-- A create that succeeds has found a guard, stored the row and met the conditions. -/
lemma Client.create_eq_ok {c c' : Client} {q : Request} {db db' : Database} {row : Json.Fields}
    {id : Int} (h : c.create q db row = (c', .ok (db', id))) :
    ∃ record columns conditions effect,
      q.artifact db .writeGuard .create = .ok (some record) ∧
        record.body = .createGuard columns conditions ∧
        q.insertRow db columns row = .ok (db', effect) ∧
        id = effect.lastRowId.getD c.lastRowId ∧ q.judge db' id conditions = .ok () := by
  unfold create at h
  dsimp only at h
  split at h
  next => cases h
  next db₁ effect conditions hinserted =>
    obtain ⟨⟨columns, conditions'⟩, hguard, hinserted⟩ := bind_eq_ok.mp hinserted
    obtain ⟨⟨db₂, effect'⟩, hrow, hinserted⟩ := bind_eq_ok.mp hinserted
    cases hinserted
    obtain ⟨record, hrecord, hbody⟩ := Request.createGuard_eq_ok hguard
    obtain ⟨-, hmap⟩ := Prod.mk.inj h
    obtain ⟨_, hjudge, hresult⟩ := map_eq_ok.mp hmap
    cases hresult
    exact ⟨record, columns, _, _, hrecord, hbody, hrow, rfl, hjudge⟩

/-! ### Claims that a rule refers to -/

namespace Predicate

variable {w w' : Surroundings} {row : RowValues}

mutual

/-- A predicate depends on the caller and on the claims that it refers to. -/
lemma holds_congr (hcaller : w.principal = w'.principal) {p : Predicate}
    (h : ∀ claim ∈ p.claimList, w.claims claim = w'.claims claim) :
    p.Holds w row ↔ p.Holds w' row := by
  match p with
  | .literalEq column value => rw [Holds, Holds]
  | .identityEq column => rw [Holds, Holds, Surroundings.IsId, Surroundings.IsId, hcaller]
  | .membership column claim | .propertyCheck column claim property allowed =>
    rw [claimList, List.forall_mem_singleton] at h
    simp only [Holds, Surroundings.IsRelated, Surroundings.IsId, hcaller, h]
  | .and children =>
    rw [claimList] at h
    rw [Holds, Holds, (holdAll_congr hcaller h).1]
  | .or children =>
    rw [claimList] at h
    rw [Holds, Holds, (holdAll_congr hcaller h).2]

lemma holdAll_congr (hcaller : w.principal = w'.principal) {ps : List Predicate}
    (h : ∀ claim ∈ claimLists ps, w.claims claim = w'.claims claim) :
    (HoldAll w row ps ↔ HoldAll w' row ps) ∧ (HoldsOne w row ps ↔ HoldsOne w' row ps) := by
  match ps with
  | [] => exact ⟨Iff.rfl, Iff.rfl⟩
  | p :: rest =>
    rw [claimLists, List.forall_mem_append] at h
    rw [HoldAll, HoldAll, HoldsOne, HoldsOne, holds_congr hcaller h.1,
      (holdAll_congr hcaller h.2).1, (holdAll_congr hcaller h.2).2]
    exact ⟨Iff.rfl, Iff.rfl⟩

end

end Predicate

lemma Rule.permits_congr {w w' : Surroundings} {row : RowValues} {r : Rule}
    (hcaller : w.principal = w'.principal)
    (h : ∀ claim, r.references claim = true → w.claims claim = w'.claims claim) :
    r.Permits w row ↔ r.Permits w' row := by
  unfold Permits
  unfold references at h
  cases hp : r.predicate with
  | none => exact Iff.rfl
  | some p =>
    rw [hp] at h
    exact Predicate.holds_congr hcaller fun claim hclaim =>
      h claim (List.contains_iff_mem.mpr hclaim)

/-- A claim reads a table, directly or through the views that it is made of. -/
def Naming.ClaimReads (n : Naming) (db : Database) (claim table : String) : Prop :=
  ∃ source headings hasRowId,
    (db.binder true).find (n.claimView claim) = .ok (source, headings, hasRowId) ∧
      ∃ name ∈ source.tables, Text.sameName table name = true

/-- A claim that does not read a table has the same rows after a change of the rows of that
table. -/
lemma Naming.claimRows_setTable {n : Naming} {db : Database} {t : Table} {claim : String}
    (hschema : (db.setTable t).schema = db.schema) (hreads : ¬ n.ClaimReads db claim t.name)
    (env : Env) :
    ((db.setTable t).binder true).claimRows (db.setTable t) env (n.claimView claim) =
      (db.binder true).claimRows db env (n.claimView claim) := by
  rw [Database.binder_congr hschema]
  cases hfind : (db.binder true).find (n.claimView claim) with
  | error e => rw [Binder.claimRows, Binder.claimRows, hfind]
  | ok found =>
    obtain ⟨source, headings, hasRowId⟩ := found
    rw [Binder.claimRows_eq _ env hfind, Binder.claimRows_eq _ env hfind]
    have hrows : source.rows (db.setTable t) env = source.rows db env :=
      BoundSource.rows_congr fun name hname => Database.tableRows_setTable <|
        Bool.eq_false_iff.mpr fun hsame =>
          hreads ⟨source, headings, hasRowId, hfind, name, hname, hsame⟩
    rw [hrows]

lemma Rule.plan?_create {r : Rule} {t : TableShape} (h : r.operation = .create) :
    r.plan? t = some (.write (.create t.name t.columns r.guardConditions)) := by
  rw [plan?, h]

/-! ### The registry of a create rule -/

/-- The registry guards a table by a create rule: the guard that is found for it is that of the
rule. -/
structure Naming.GuardsCreate (n : Naming) (q : Request) (db : Database) (r : Rule) (t : Table) :
    Prop where
  isCreate : r.operation = .create
  finite : ∀ p, r.predicate = some p → p.lowered.IsFinite
  table : db.table? q.table = some t
  name : t.name = q.table
  only : ∀ u ∈ db.tables, u.name = t.name → u = t
  full : t.IsFull
  body : ∀ record, q.artifact db .writeGuard .create = .ok (some record) →
    record.body = n.renderGuard (.create t.name t.shape.columns r.guardConditions)
  closed : ∀ v ∈ db.views, v.query.params = 0

namespace Naming.GuardsCreate

variable {n : Naming} {q : Request} {db db' : Database} {r : Rule} {t : Table} {c c' : Client}
  {row : Json.Fields} {id : Int}

lemma condition_isFinite (h : n.GuardsCreate q db r t) {g : GuardCondition}
    (hg : g ∈ r.guardConditions) : g.fragment.IsFinite := by
  unfold Rule.guardConditions at hg
  cases hp : r.predicate with
  | none =>
    rw [hp] at hg
    rw [List.mem_singleton.mp hg]
    trivial
  | some p =>
    have hfinite := h.finite p hp
    rw [hp] at hg
    cases hleaves : p.leaves? with
    | none =>
      simp only [hleaves] at hg
      rw [List.mem_singleton.mp hg]
      exact hfinite
    | some cs =>
      simp only [hleaves] at hg
      obtain ⟨condition, hcondition, rfl⟩ := List.mem_map.mp hg
      exact (Predicate.leaves?_iff (fun _ => Fragment.areFinite_iff) hleaves).mpr hfinite
        condition hcondition

lemma table_setTable (h : n.GuardsCreate q db r t) (new : Row) :
    (db.setTable (t.withRow new)).table? q.table = some (t.withRow new) := by
  have hname : (t.name == (t.withRow new).name) = true := beq_self_eq_true _
  rw [Database.table?_setTable, h.table, Option.map_some, if_pos hname]

lemma schema_setTable (h : n.GuardsCreate q db r t) (new : Row) :
    (db.setTable (t.withRow new)).schema = db.schema :=
  Database.schema_setTable fun u hu hname => by
    rw [h.only u hu hname]
    rfl

lemma closed_setTable (h : n.GuardsCreate q db r t) (u : Table) :
    ∀ v ∈ (db.setTable u).views, v.query.params = 0 :=
  h.closed

lemma holds_iff (h : n.GuardsCreate q db r t) {g : GuardCondition} (hg : g ∈ r.guardConditions)
    (new : Row) {passed : Bool} :
    let db' := db.setTable (t.withRow new)
    q.holds db' (storedRowCondition (n.fragment (quoteName t.name) g.fragment) q.table) [.int id] =
        .ok passed ↔
      g.CanBeJudged n db' (t.withRow new) ∧
        ∃ stored, (t.withRow new).selected? id = some stored ∧ (passed = true ↔
          g.fragment.IsTrue ((db'.binder true).surroundings db' (q.env []) n)
            ((t.withRow new).values stored)) := by
  rw [← h.name]
  refine Request.holds_judgeSql (t := t.withRow new) (h.condition_isFinite hg) ?_
    (Database.binder_isFixed (h.closed_setTable _))
  exact h.name ▸ h.table_setTable new

/-- Every condition is met by the row that a create stores, as the database stands with the row in
it, and not by another row with its id. -/
lemma conditions_after (h : n.GuardsCreate q db r t) (hnames : t.NamesRowId)
    (hcreate : c.create q db row = (c', .ok (db', id))) :
    ∃ new : Row, db' = db.setTable (t.withRow new) ∧
      (t.withoutRowId = false → new.id = id ∧ ∀ other ∈ t.rows, other.id ≠ id) ∧
      ∀ g ∈ r.guardConditions,
        g.fragment.IsTrue ((db'.binder true).surroundings db' (q.env []) n) (t.values new) := by
  obtain ⟨record, columns, conditions, effect, hrecord, hbody, hinsert, hid, hjudge⟩ :=
    Client.create_eq_ok hcreate
  rw [h.body record hrecord, renderGuard] at hbody
  cases hbody
  obtain ⟨u, given, id', t', rowId, hu, hinsert, rfl, heffect⟩ := Request.insertRow_eq_ok hinsert
  obtain rfl : t = u := Option.some.inj (h.table.symm.trans hu)
  obtain ⟨hcheck, rfl⟩ := Table.insert_eq_ok hinsert
  refine ⟨_, rfl, fun hwithout => ?_, fun g hg => ?_⟩
  · rw [heffect, hwithout] at hid
    cases hid
    exact ⟨rfl, (Table.checkRow_iff.mp hcheck).2.1 hwithout⟩
  have hcondition := Request.judge_eq_ok hjudge _ (List.mem_map.mpr ⟨g, hg, rfl⟩)
  obtain ⟨-, stored, hstored, htrue⟩ := (h.holds_iff hg _).mp hcondition
  -- Only the new row has the id that the conditions are judged by.
  rw [Table.eq_of_selected?_withRow hnames h.full (fun hwithout => ?_) hstored] at htrue
  · exact htrue.mp rfl
  · rw [hid, heffect, hwithout]
    exact ⟨rfl, (Table.checkRow_iff.mp hcheck).2.1 hwithout⟩

/-- The row that a create stores meets the rule, as the database stands with the row in it. -/
lemma permits_after (h : n.GuardsCreate q db r t) (hnames : t.NamesRowId)
    (hcreate : c.create q db row = (c', .ok (db', id))) :
    ∃ new : Row, db' = db.setTable (t.withRow new) ∧
      r.Permits ((db'.binder true).surroundings db' (q.env []) n) (t.values new) := by
  obtain ⟨new, hdb, -, hconditions⟩ := h.conditions_after hnames hcreate
  exact ⟨new, hdb,
    (Rule.passes_plan (Rule.plan?_create (t := t.shape) h.isCreate)).mp hconditions⟩

/-- If no claim of the rule reads the guarded table, the stored row meets the rule as the database
stood before it. -/
lemma permits_before (h : n.GuardsCreate q db r t) (new : Row)
    (hreads : ∀ claim, r.references claim = true → ¬ n.ClaimReads db claim t.name)
    {values : RowValues} :
    r.Permits (((db.setTable (t.withRow new)).binder true).surroundings
        (db.setTable (t.withRow new)) (q.env []) n) values ↔
      r.Permits ((db.binder true).surroundings db (q.env []) n) values :=
  Rule.permits_congr rfl fun claim hclaim =>
    Naming.claimRows_setTable (t := t.withRow new) (h.schema_setTable new) (hreads claim hclaim) _

end Naming.GuardsCreate

end RowPolicy
