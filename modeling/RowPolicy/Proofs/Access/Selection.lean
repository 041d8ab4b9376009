import RowPolicy.Access.Client
import RowPolicy.Proofs.Compilation
import RowPolicy.Proofs.Database.Resolution
import RowPolicy.Proofs.Database.Selection

/-!
# Rows that requests yield

A read yields the rows of the table that its view's condition holds for. A fetch checks the given
values and yields the rows that equal them.
-/

namespace RowPolicy

open Sql Naming

/-! ### Rows of a table -/

namespace Table

def scope (t : Table) (name : String) : Scope := Database.writeScope t name

def values (t : Table) (r : Row) : RowValues := (t.scope t.name).values r.frame

def record (t : Table) (columns : List String) (r : Row) : Json.Fields :=
  Json.Fields.merge ((((t.scope t.name).project? columns).getD []).map fun c =>
    (c.2.1, (r.frame.getD c.1 .null).toJson))

/-- The names under which the columns of a projection are shown are distinct. -/
def ShowsDistinct (t : Table) (columns : List String) : Prop :=
  ((((t.scope t.name).project? columns).getD []).map Prod.snd).Pairwise fun g h =>
    Text.sameName h.1 g.1 = false

end Table

/-! ### Given values -/

/-- A check accepts a value under the affinity of its column. -/
def Check.Accepts (w : Surroundings) (c : Check) (a : Affinity) (x : Cell) : Prop :=
  c.fragment.IsTrue w ⟨fun _ => x, fun _ => a⟩

lemma Check.isTrue_iff {w : Surroundings} {c : Check} {row : RowValues} :
    c.fragment.IsTrue w row ↔ c.Accepts w (row.affinity c.column) (row.cell c.column) := by
  unfold Accepts fragment
  cases c.kind with
  | principal => simp only [Fragment.IsTrue, Fragment.truth]
  | member lookup => simp only [Fragment.IsTrue, Fragment.truth]

/-- Whether a row has the given values and meets the conditions on literals. -/
def Accessor.selects (a : Accessor) (given : String → Cell) (row : RowValues) : Bool :=
  (a.parameters.all fun c =>
    Cell.compareWith .eq (row.affinity c) (row.cell c) (given c) == some true) &&
  a.conditions.all fun
    | .check _ => true
    | .baked column value => Fragment.literalTruth row column value == some true

variable {e : Sql.Expr} {records : List Json.Fields}

namespace Binder

variable {b : Binder} {db : Database}

lemma surroundings_fixed (hb : b.IsFixed db) (p p' : List Cell) (caller : Option String)
    (n : Naming) : b.surroundings db ⟨p, caller⟩ n = b.surroundings db ⟨p', caller⟩ n := by
  simp only [surroundings, Surroundings.mk.injEq, true_and]
  funext claim
  cases hfind : b.find (n.claimView claim) with
  | error e => rw [claimRows, claimRows, hfind]
  | ok found =>
    obtain ⟨rows, headings, hasRowId⟩ := found
    rw [claimRows_eq db _ hfind, claimRows_eq db _ hfind, hb _ _ hfind p p']

lemma outputs_one {s : Scope} {title : String} {shown : List Shown} :
    b.outputs [s] [.expr e none title] = .ok shown ↔
      ∃ x a, b.expr [s] e = .ok (x, a) ∧ shown = [⟨x, (shownName [s] e title, a)⟩] := by
  rw [outputs, output, outputs]
  constructor
  · intro h
    obtain ⟨shown', hshown', h⟩ := bind_eq_ok.mp h
    cases h
    obtain ⟨⟨x, a⟩, hx, hshown'⟩ := bind_eq_ok.mp hshown'
    cases hshown'
    exact ⟨x, a, hx, rfl⟩
  · rintro ⟨x, a, hx, rfl⟩
    rw [hx]
    rfl

/-! ### Checks -/

/-- The row that holds a candidate value. -/
def candidateScope (column : String) : Scope := ⟨"candidate", [(column, .none)], false⟩

lemma columnOf?_candidate (column : String) :
    columnOf? (candidateScope column) column = some (0, column, .none) := by
  simp [columnOf?, candidateScope, Text.sameName_self]

lemma query_candidate (b : Binder) (column title : String) :
    b.query [] (candidateQuery column title) =
      .ok (.select false [.param 0] .unit (.const (.int 1)), [(column, .none)]) := by
  simp only [candidateQuery, query, source, outputs, output, expr]
  rfl

/-- The query of a check yields the truth value of its condition on the candidate value. -/
lemma query_check (db : Database) {n : Naming} {c : Check} {title inner : String}
    (he : c.fragment.Denotes n "candidate" e) {bound : BoundQuery} {headings : List Heading}
    (h : b.query [] (.select false [.expr e none title]
      (.query (candidateQuery c.column inner) (some "candidate")) (.int 1)) =
        .ok (bound, headings)) :
    c.fragment.Resolves b n (candidateScope c.column) ∧
      ∀ (x : Cell) (caller : Option String), bound.rows db ⟨[x], caller⟩ [] =
        [[(c.fragment.truth (b.surroundings db ⟨[x], caller⟩ n)
          ((candidateScope c.column).values [x])).toCell]] := by
  rw [query, source, query_candidate] at h
  change (b.outputs [candidateScope c.column] _ >>= _) = _ at h
  obtain ⟨shown, hshown, h⟩ := bind_eq_ok.mp h
  obtain ⟨x, a, hx, rfl⟩ := outputs_one.mp hshown
  rw [expr] at h
  cases h
  have hfits : b.ClaimsFit n (candidateScope c.column) := claimsFit_candidate b n _ _
  refine ⟨(fragment_isOk hfits he).mp (isOk_iff.mpr ⟨_, hx⟩), fun y caller => ?_⟩
  have hcandidate : BoundQuery.rows db ⟨[y], caller⟩ []
      (.select false [.param 0] .unit (.const (.int 1))) = [[y]] := by
    rw [BoundQuery.rows_select, BoundSource.rows]
    simp [BoundExpr.eval, BoundExpr.evalAll, Cell.truth]
  rw [BoundQuery.rows_select, BoundSource.rows, hcandidate]
  simp [BoundExpr.eval, BoundExpr.evalAll, Cell.truth, fragment_eq_ok hfits he hx]

/-! ### Equations -/

variable {s : Scope} {bound : BoundExpr} {a : Affinity}

lemma equation_eq_ok {column : String} {i : Nat}
    (h : b.expr [s] (.compare .eq (.column (some s.name) column false) (.param i)) =
      .ok (bound, a)) (env : Env) (frame : List Cell) :
    bound.eval db env [frame] =
      (Cell.compareWith .eq (s.affinity column) (s.cell frame column)
        (env.params.getD i .null)).toCell := by
  rw [expr] at h
  obtain ⟨⟨x, xa⟩, hcolumn, h⟩ := bind_eq_ok.mp h
  rw [expr] at h
  cases h
  obtain ⟨rfl, heval⟩ := column_eq_ok db env (covers_nil s) hcolumn
  rw [BoundExpr.eval, heval, BoundExpr.eval, Affinity.ofComparison_none]

lemma equation_isOk {column : String} {i : Nat} :
    (b.expr [s] (.compare .eq (.column (some s.name) column false) (.param i))).isOk = true ↔
      s.Has column := by
  rw [expr, expr]
  exact (isOk_map fun _ _ => rfl).trans (column_isOk (covers_nil s))

/-! ### Accessors -/

/-- A condition is bound and true for a row. -/
def Meets (b : Binder) (db : Database) (env : Env) (s : Scope) (frame : List Cell)
    (e : Sql.Expr) : Prop :=
  ∃ bound a, b.expr [s] e = .ok (bound, a) ∧ (bound.eval db env [frame]).truth = some true

lemma meets_iff_truth (h : b.expr [s] e = .ok (bound, a)) {env : Env} {frame : List Cell} :
    b.Meets db env s frame e ↔ (bound.eval db env [frame]).truth = some true := by
  constructor
  · rintro ⟨bound', a', h', htrue⟩
    rw [h] at h'
    cases h'
    exact htrue
  · intro htrue
    exact ⟨bound, a, h, htrue⟩

lemma exprs_meets {es : List Sql.Expr} {bounds : List BoundExpr}
    (h : b.exprs [s] es = .ok bounds) :
    (∀ e ∈ es, (b.expr [s] e).isOk = true) ∧
      ∀ env frame, BoundExpr.allTrue db env [frame] bounds = some true ↔
        ∀ e ∈ es, b.Meets db env s frame e := by
  induction es generalizing bounds with
  | nil =>
    rw [exprs] at h
    cases h
    simp [BoundExpr.allTrue]
  | cons e rest ih =>
    rw [exprs] at h
    obtain ⟨⟨x, a⟩, hx, h⟩ := bind_eq_ok.mp h
    obtain ⟨xs, hxs, h⟩ := bind_eq_ok.mp h
    cases h
    obtain ⟨hok, htrue⟩ := ih hxs
    refine ⟨List.forall_mem_cons.mpr ⟨isOk_iff.mpr ⟨_, hx⟩, hok⟩, fun env frame => ?_⟩
    rw [BoundExpr.allTrue, Truth.and_eq_true, htrue, List.forall_mem_cons, meets_iff_truth hx]

/-- A conjunction is bound if its parts are, and true if they are. -/
lemma chain_meets {es : List Sql.Expr} (h : b.expr [s] (chain .and es) = .ok (bound, a)) :
    (∀ e ∈ es, (b.expr [s] e).isOk = true) ∧
      ∀ env frame, (bound.eval db env [frame]).truth = some true ↔
        ∀ e ∈ es, b.Meets db env s frame e := by
  rw [chain.eq_def] at h
  split at h
  next e =>
    refine ⟨List.forall_mem_singleton.mpr (isOk_iff.mpr ⟨_, h⟩), fun env frame => ?_⟩
    rw [List.forall_mem_singleton, meets_iff_truth h]
  next =>
    rw [expr] at h
    obtain ⟨bounds, hbounds, h⟩ := bind_eq_ok.mp h
    cases h
    simp only [BoundExpr.eval, Truth.truth_toCell]
    exact exprs_meets hbounds

/-- The clauses of an accessor's query: equations with the parameters, and literals. -/
lemma mem_clauseExprs {n : Naming} {a : Accessor} {P : Sql.Expr → Prop} :
    (∀ e ∈ (n.clausePieces a).map fun p => p.2.2, P e) ↔
      (∀ i c, a.parameters[i]? = some c →
        P (.compare .eq (.column (some a.table) c false) (.param i))) ∧
      ∀ column value, .baked column value ∈ a.conditions →
        P (Fragment.literalExpr a.table column value) := by
  rw [clausePieces, List.map_append, List.forall_mem_append]
  refine and_congr ?_ ?_
  · simp only [List.map_map, List.forall_mem_map, Prod.forall, List.mk_mem_zipIdx_iff_getElem?]
    exact forall_comm
  · constructor
    · intro h column value hmem
      refine h _ (List.mem_map.mpr ⟨_, List.mem_filterMap.mpr ⟨_, hmem, rfl⟩, rfl⟩)
    · intro h e he
      obtain ⟨p, hp, rfl⟩ := List.mem_map.mp he
      obtain ⟨condition, hcondition, hsome⟩ := List.mem_filterMap.mp hp
      cases condition with
      | check c => cases hsome
      | baked column value =>
        cases hsome
        exact h column value hcondition

/-- The condition of an accessor's query is true for the rows that the accessor selects. -/
lemma accessorFilter_eq_ok {n : Naming} {a : Accessor} (hname : s.name = a.table) {af : Affinity}
    (h : b.expr [s] (n.accessorFilter a) = .ok (bound, af)) :
    ((∀ c ∈ a.parameters, s.Has c) ∧
      ∀ column value, .baked column value ∈ a.conditions → s.Has column) ∧
    ∀ env given frame, (∀ i c, a.parameters[i]? = some c → env.params.getD i .null = given c) →
      ((bound.eval db env [frame]).truth = some true ↔
        a.selects given (s.values frame) = true) := by
  -- The filter is a conjunction of clauses, or a constant if there are none.
  have hchain : (∀ e ∈ (n.clausePieces a).map fun p => p.2.2, (b.expr [s] e).isOk = true) ∧
      ∀ env frame, (bound.eval db env [frame]).truth = some true ↔
        ∀ e ∈ (n.clausePieces a).map fun p => p.2.2, b.Meets db env s frame e := by
    rw [accessorFilter] at h
    split at h
    next hempty =>
      rw [expr] at h
      cases h
      rw [List.isEmpty_iff.mp hempty]
      simp [BoundExpr.eval, Cell.truth]
    next => exact chain_meets h
  obtain ⟨hok, htrue⟩ := hchain
  rw [mem_clauseExprs, ← hname] at hok
  refine ⟨⟨?_, ?_⟩, fun env given frame hgiven => ?_⟩
  · intro c hc
    obtain ⟨i, hi⟩ := List.getElem?_of_mem hc
    exact equation_isOk.mp (hok.1 i c hi)
  · intro column value hmem
    exact (literal_isOk (covers_nil s)).mp (hok.2 column value hmem)
  · rw [htrue, mem_clauseExprs, ← hname, Accessor.selects, Bool.and_eq_true, List.all_eq_true,
      List.all_eq_true]
    -- A clause is about a parameter or about a literal.
    have hequation : ∀ i c, a.parameters[i]? = some c →
        (b.Meets db env s frame (.compare .eq (.column (some s.name) c false) (.param i)) ↔
          (Cell.compareWith .eq (s.affinity c) (s.cell frame c) (given c) == some true) = true) :=
        fun i c hi => by
      obtain ⟨⟨x, xa⟩, hx⟩ := isOk_iff.mp (hok.1 i c hi)
      rw [meets_iff_truth hx, equation_eq_ok hx, Truth.truth_toCell, hgiven i c hi, beq_iff_eq]
    have hliteral : ∀ column value, .baked column value ∈ a.conditions →
        (b.Meets db env s frame (Fragment.literalExpr s.name column value) ↔
          (Fragment.literalTruth (s.values frame) column value == some true) = true) :=
        fun column value hmem => by
      obtain ⟨⟨x, xa⟩, hx⟩ := isOk_iff.mp (hok.2 column value hmem)
      rw [meets_iff_truth hx, literal_eq_ok (covers_nil s) hx, Truth.truth_toCell, beq_iff_eq]
    refine and_congr ⟨fun h c hc => ?_, fun h i c hi => ?_⟩ ⟨fun h condition hc => ?_,
      fun h column value hmem => ?_⟩
    · obtain ⟨i, hi⟩ := List.getElem?_of_mem hc
      exact (hequation i c hi).mp (h i c hi)
    · exact (hequation i c hi).mpr (h c (List.mem_of_getElem? hi))
    · cases condition with
      | check c => rfl
      | baked column value => exact (hliteral column value hc).mp (h column value hc)
    · exact (hliteral column value hmem).mpr (h _ hmem)

end Binder

lemma Truth.eq_true_of_toCell {t : Truth} {i : Int} (h : t.toCell = .int i) (hi : i ≠ 0) :
    t = some true := by
  rcases t with _ | _ | _
  · cases h
  · cases h
    exact absurd rfl hi
  · rfl

namespace Request

variable {q : Request} {db : Database} {n : Naming} {sql : String}

lemma ofStorage_eq_ok {α : Type} {r : Bound α} {a : α} : ofStorage r = .ok a ↔ r = .ok a :=
  mapError_eq_ok

lemma holds_eq_true {params : List Cell} :
    q.holds db sql params = .ok true ↔ ∃ names row rest i,
      db.select true (q.env params) sql = .ok (names, row :: rest) ∧
        row.headD .null = .int i ∧ i ≠ 0 := by
  rw [holds]
  constructor
  · intro h
    obtain ⟨⟨names, rows⟩, hselect, h⟩ := bind_eq_ok.mp h
    rw [ofStorage_eq_ok] at hselect
    cases rows with
    | nil => cases h
    | cons row rest =>
      cases hcell : row.headD .null with
      | int i =>
        simp only [hcell] at h
        exact ⟨names, row, rest, i, hselect, hcell, bne_iff_ne.mp (pure_eq_ok.mp h)⟩
      | null =>
        simp only [hcell] at h
        cases h
      | real _ | text _ | blob _ =>
        simp only [hcell] at h
        cases h
  · rintro ⟨names, row, rest, i, hselect, hcell, hi⟩
    have hpositive : (pure (i != 0) : Accessed Bool) = .ok true :=
      pure_eq_ok.mpr (bne_iff_ne.mpr hi)
    rw [ofStorage_eq_ok.mpr hselect, ok_bind]
    simp only [hcell, hpositive]

lemma holds_of_select {cells : List Cell} {names : List String} {truth : Truth}
    {rest : List (List Cell)}
    (h : db.select true (q.env cells) sql = .ok (names, [truth.toCell] :: rest)) :
    q.holds db sql cells = .ok (truth == some true) := by
  rw [holds, ofStorage_eq_ok.mpr h, ok_bind]
  rcases truth with _ | _ | _ <;> rfl

lemma accepts_of_holds {c : Check} (hc : c.fragment.IsFinite)
    (hb : (db.binder true).IsFixed db) {x : Cell}
    (h : q.holds db (n.renderCheck c).sql [x] = .ok true) :
    c.Accepts ((db.binder true).surroundings db (q.env []) n) .none x ∧
      c.fragment.Resolves (db.binder true) n (Binder.candidateScope c.column) := by
  obtain ⟨names, row, rest, i, hselect, hcell, hi⟩ := holds_eq_true.mp h
  rcases parse_check n hc with ⟨-, _, hparse, e, title, inner, rfl, he⟩ | ⟨-, herror⟩
  · obtain ⟨bound, headings, hbound, -, -, hrows⟩ := (Database.select_eq_ok hparse).mp hselect
    obtain ⟨hresolves, htruth⟩ := Binder.query_check db he hbound
    refine ⟨?_, hresolves⟩
    have hrow := (htruth x q.principal.id).symm.trans hrows
    rw [Binder.surroundings_fixed hb [x] []] at hrow
    cases hrow
    have htrue := Check.isTrue_iff.mp (Truth.eq_true_of_toCell hcell hi)
    simp only [Scope.values, Scope.affinity, Scope.cell, Binder.columnOf?_candidate] at htrue
    exact htrue
  · exact absurd hselect (Database.select_error herror)

/-! ### Rows of a selection -/

lemma select_eq_ok {params : List Cell} :
    q.select db sql params = .ok records ↔ ∃ names rows,
      db.select true (q.env params) sql = .ok (names, rows) ∧
        (rows.map fun row => Json.Fields.merge (names.zip (row.map Cell.toJson))) = records := by
  rw [select]
  constructor
  · intro h
    obtain ⟨⟨names, rows⟩, hselect, h⟩ := bind_eq_ok.mp h
    exact ⟨names, rows, ofStorage_eq_ok.mp hselect, pure_eq_ok.mp h⟩
  · rintro ⟨names, rows, hselect, rfl⟩
    exact bind_eq_ok.mpr ⟨(names, rows), ofStorage_eq_ok.mpr hselect, rfl⟩

end Request

namespace Database

variable {db : Database} {name : String} {t : Table}

lemma rows_table (h : db.table? name = some t) (env : Env) :
    (BoundSource.table t.name).rows db env = t.rows.map Row.frame := by
  rw [BoundSource.rows, tableRows, table?_congr (sameName_of_table? h), h]

end Database

namespace Table

variable {t : Table} {columns : List String} {shown : List (Nat × Heading)}

lemma project?_scope (t : Table) (name : String) (columns : List String) :
    (t.scope name).project? columns = (t.scope t.name).project? columns := rfl

lemma record_eq (h : (t.scope t.name).project? columns = some shown) (r : Row) :
    Json.Fields.merge ((shown.map fun c => c.2.1).zip ((cellsAt shown r.frame).map Cell.toJson)) =
      t.record columns r := by
  rw [record, h, cellsAt, List.map_map, List.zip_map']
  rfl

end Table

/-! ### Reads and fetches -/

/-- The rows of a table that meet a condition, as records of the columns of a projection. -/
lemma Table.records_eq {db : Database} {t : Table} {name : String} {env : Env}
    {columns : List String} {shown : List (Nat × Heading)} {filter : BoundExpr} {keep : Row → Bool}
    (ht : db.table? name = some t) (hshown : (t.scope t.name).project? columns = some shown)
    (hkeep : ∀ r : Row, (filter.eval db env [r.frame]).truth = some true ↔ keep r = true) :
    ((BoundQuery.rows db env [] (.select false ((shown.map Binder.shownAt).map Binder.Shown.expr)
        (.table t.name) filter)).map fun row => Json.Fields.merge
          ((((shown.map Binder.shownAt).map Binder.Shown.heading).map Prod.fst).zip
            (row.map Cell.toJson))) =
      (t.rows.filter keep).map (t.record columns) := by
  have hfilter : ((fun row => (filter.eval db env [row]).truth == some true) ∘ Row.frame) = keep :=
    funext fun r => Bool.eq_iff_iff.mpr (beq_iff_eq.trans (hkeep r))
  have hnames : ((shown.map Binder.shownAt).map Binder.Shown.heading).map Prod.fst =
      shown.map fun c => c.2.1 := by
    simp only [List.map_map]
    rfl
  rw [BoundQuery.rows_select, Database.rows_table ht, List.filter_map, hfilter, List.map_map,
    List.map_map, hnames]
  refine List.map_congr_left fun r _ => ?_
  simp only [Function.comp, Binder.evalAll_shownAt]
  exact t.record_eq hshown r

namespace Request

variable {q : Request} {db : Database} {n : Naming} {t : Table}

lemma select_accessor {a : Accessor} {os : List Output} (ht : db.table? a.table = some t)
    (hparse : parse (n.accessorQuery a) =
      .one (.query (.select false os (.named a.table none) (n.accessorFilter a))) [])
    (hos : IsProjection a.table a.projection os) {cells : List Cell} {given : String → Cell}
    (hgiven : ∀ i c, a.parameters[i]? = some c → cells.getD i .null = given c)
    (h : q.select db (n.accessorQuery a) cells = .ok records) :
    (∃ shown, (t.scope t.name).project? a.projection = some shown) ∧
    ((∀ c ∈ a.parameters, (t.scope t.name).Has c) ∧
      ∀ column value, .baked column value ∈ a.conditions → (t.scope t.name).Has column) ∧
    records = (t.rows.filter fun r => a.selects given (t.values r)).map
      (t.record a.projection) := by
  obtain ⟨names, rows, hselect, rfl⟩ := select_eq_ok.mp h
  obtain ⟨bound, headings, hbound, -, rfl, rfl⟩ := (Database.select_eq_ok hparse).mp hselect
  obtain ⟨source, columns, hasRowId, shown, filter, af, hfind, hshown, hfilter, rfl, rfl⟩ :=
    Binder.select_eq_ok.mp hbound
  rw [Database.find_table ht] at hfind
  cases hfind
  obtain ⟨hhas, htrue⟩ := Binder.accessorFilter_eq_ok (s := t.scope a.table) rfl hfilter
  have houtputs := Binder.outputs_projection (b := db.binder true) (s := t.scope a.table) hos
  rw [t.project?_scope] at houtputs
  cases hproject : (t.scope t.name).project? a.projection with
  | none =>
    rw [hproject] at houtputs
    exact absurd (hshown.symm.trans houtputs) (by simp)
  | some places =>
    rw [hproject] at houtputs
    cases hshown.symm.trans houtputs
    exact ⟨⟨places, rfl⟩, hhas, t.records_eq ht hproject fun r => htrue _ given r.frame hgiven⟩

/-- Reading all of a filtered view yields the rows that its condition holds for. -/
lemma select_view {v : ReadView} {view : View} {os : List Output}
    (ht : db.table? v.table = some t) (hnone : db.table? (n.readView v.table) = none)
    (hview : db.view? (n.readView v.table) = some view)
    (hquery : view.query = .select false os (.named v.table none) e)
    (hos : IsProjection v.table v.projection os) (he : v.filter.Denotes n v.table e)
    (hshown : ∃ shown, (t.scope t.name).project? v.projection = some shown)
    (hdistinct : t.ShowsDistinct v.projection)
    (hresolves : v.filter.Resolves (db.binder true) n (t.scope v.table))
    (hparse : parse (Sql.selectAll (n.readView v.table)) =
      .one (.query (allRows (n.readView v.table))) []) :
    q.select db (Sql.selectAll (n.readView v.table)) [] =
      .ok ((t.rows.filter fun r => v.filter.truth
        ((db.binder true).surroundings db (q.env []) n) (t.values r) == some true).map
          (t.record v.projection)) := by
  obtain ⟨places, hplaces⟩ := hshown
  have hfind : (db.binder true).find v.table = _ := Database.find_table ht
  have hfits := Binder.claimsFit_of_find hfind n
  obtain ⟨⟨filter, af⟩, hfilter⟩ := isOk_iff.mp ((Binder.fragment_isOk hfits he).mpr hresolves)
  have houtputs := Binder.outputs_projection (b := db.binder true) (s := t.scope v.table) hos
  rw [t.project?_scope, hplaces] at houtputs
  have hbound := Binder.select_eq_ok.mpr ⟨_, _, _, _, _, _, hfind, houtputs, hfilter, rfl, rfl⟩
  rw [← hquery] at hbound
  have hheadings : (places.map Binder.shownAt).map Binder.Shown.heading = places.map Prod.snd := by
    simp only [List.map_map]
    rfl
  have hne : (places.map Binder.shownAt).map Binder.Shown.heading ≠ [] := by
    rw [hheadings]
    exact fun h => Scope.project?_ne_nil hplaces (List.map_eq_nil_iff.mp h)
  have hnames : Binder.distinctNames [] ((places.map Binder.shownAt).map Binder.Shown.heading) =
      (places.map Binder.shownAt).map Binder.Shown.heading := by
    rw [Table.ShowsDistinct, hplaces, Option.getD_some, ← hheadings] at hdistinct
    exact Binder.distinctNames_of_distinct hdistinct fun _ _ => rfl
  obtain ⟨all, hall, hrows⟩ := Database.allRows_view hnone hview hbound hne
  rw [hnames] at hall
  refine select_eq_ok.mpr ⟨_, _, (Database.select_eq_ok hparse).mpr
    ⟨all, _, hall, ⟨rfl, nested_allRows _⟩, rfl, hrows _ fun row hrow => ?_⟩, ?_⟩
  · rw [BoundQuery.rows_select] at hrow
    obtain ⟨frame, -, rfl⟩ := List.mem_map.mp hrow
    rw [Binder.evalAll_shownAt, cellsAt, List.length_map, hheadings, List.length_map]
  · refine t.records_eq ht hplaces fun r => ?_
    rw [Binder.fragment_eq_ok hfits he hfilter, Truth.truth_toCell, beq_iff_eq]
    rfl

end Request

end RowPolicy
