import RowPolicy.Proofs.Database.Depth
import RowPolicy.Proofs.Database.Evaluation

/-!
# Selections

What the queries of views and accessors yield: the rows of a table that meet a condition, with the
columns of a projection. Reading all of a view yields the rows of its query.
-/

namespace RowPolicy

open Sql

/-! ### Projections -/

variable {columns : List String} {headings : List Heading}

namespace Scope

/-- The places and headings of the columns of a projection; all columns if it is empty. -/
def project? (s : Scope) (columns : List String) : Option (List (Nat × Heading)) :=
  if columns.isEmpty then
    if s.columns.isEmpty then none else some (s.columns.zipIdx.map fun (c, i) => (i, c))
  else columns.mapM (Binder.columnOf? s)

lemma project?_ne_nil {s : Scope} {shown : List (Nat × Heading)}
    (h : s.project? columns = some shown) : shown ≠ [] := by
  rintro rfl
  unfold project? at h
  cases columns with
  | nil =>
    cases hcolumns : s.columns with
    | nil => simp [hcolumns] at h
    | cons c rest => simp [hcolumns] at h
  | cons c rest =>
    rw [List.isEmpty_cons, if_neg (by decide), List.mapM_cons] at h
    cases hc : Binder.columnOf? s c with
    | none => simp [hc] at h
    | some found =>
      cases hrest : rest.mapM (Binder.columnOf? s) <;> simp [hc, hrest] at h

end Scope

def cellsAt (shown : List (Nat × Heading)) (frame : List Cell) : List Cell :=
  shown.map fun c => frame.getD c.1 .null

namespace Binder

variable {b : Binder} {db : Database} {env : Env} {s : Scope} {os : List Output}

def shownAt (c : Nat × Heading) : Shown := ⟨.column 0 c.1, c.2⟩

lemma evalAll_shownAt (frame : List Cell) (frames : Frames) (shown : List (Nat × Heading)) :
    BoundExpr.evalAll db env (frame :: frames) ((shown.map shownAt).map Shown.expr) =
      cellsAt shown frame := by
  induction shown with
  | nil => rw [List.map_nil, List.map_nil, BoundExpr.evalAll, cellsAt, List.map_nil]
  | cons c rest ih =>
    rw [List.map_cons, List.map_cons, BoundExpr.evalAll, ih, shownAt, BoundExpr.eval]
    rfl

lemma covers_nil (s : Scope) : s.Covers [] := fun _ h => absurd h List.not_mem_nil

lemma outputs_columns
    (h : List.Forall₂ (fun c o => ∃ title, o = .expr (.column (some s.name) c false) none title)
      columns os) :
    b.outputs [s] os =
      match columns.mapM (columnOf? s) with
      | some shown => .ok (shown.map shownAt)
      | none => .error .invalid := by
  induction h with
  | nil =>
    rw [outputs]
    rfl
  | @cons c o columns os ho _ ih =>
    obtain ⟨title, rfl⟩ := ho
    rw [outputs, output, ih, expr_column, lookup?_own (covers_nil s), List.mapM_cons]
    cases hc : columnOf? s c with
    | none => rfl
    | some found =>
      have hname : shownName [s] (.column (some s.name) c false) title = found.2.1 := by
        rw [shownName, lookup?_own (covers_nil s), hc]
        rfl
      rw [Option.map_some, hname]
      cases columns.mapM (columnOf? s) with
      | none => rfl
      | some shown => rfl

lemma allColumns_eq (s : Scope) :
    allColumns s = (s.columns.zipIdx.map fun (c, i) => (i, c)).map shownAt := by
  rw [List.map_map]
  rfl

lemma outputs_projection (h : IsProjection s.name columns os) :
    b.outputs [s] os =
      match s.project? columns with
      | some shown => .ok (shown.map shownAt)
      | none => .error .invalid := by
  unfold IsProjection at h
  unfold Scope.project?
  split at h
  next hempty =>
    subst h
    rw [if_pos hempty, outputs, output, outputs, Text.sameName_self]
    cases hcolumns : s.columns.isEmpty with
    | true => rfl
    | false =>
      rw [allColumns_eq]
      exact congrArg Except.ok (List.append_nil _)
  next hne =>
    rw [if_neg hne]
    exact outputs_columns h

/-! ### Queries -/

lemma select_eq_ok {name : String} {e : Sql.Expr} {bound : BoundQuery} :
    b.query [] (.select false os (.named name none) e) = .ok (bound, headings) ↔
      ∃ source columns hasRowId shown filter a,
        b.find name = .ok (source, columns, hasRowId) ∧
        b.outputs [⟨name, columns, hasRowId⟩] os = .ok shown ∧
        b.expr [⟨name, columns, hasRowId⟩] e = .ok (filter, a) ∧
        .select false (shown.map Shown.expr) source filter = bound ∧
        shown.map Shown.heading = headings := by
  rw [query_named]
  constructor
  · intro h
    obtain ⟨⟨rows, columns, hasRowId⟩, hfind, h⟩ := bind_eq_ok.mp h
    obtain ⟨shown, hshown, h⟩ := bind_eq_ok.mp h
    obtain ⟨⟨filter, a⟩, hfilter, h⟩ := bind_eq_ok.mp h
    cases h
    exact ⟨rows, columns, hasRowId, shown, filter, a, hfind, hshown, hfilter, rfl, rfl⟩
  · rintro ⟨rows, columns, hasRowId, shown, filter, a, hfind, hshown, hfilter, rfl, rfl⟩
    refine bind_eq_ok.mpr ⟨(rows, columns, hasRowId), hfind, ?_⟩
    exact bind_eq_ok.mpr ⟨shown, hshown, bind_eq_ok.mpr ⟨(filter, a), hfilter, rfl⟩⟩

/-! ### All rows of a view -/

lemma freshName_of_not_taken {taken : List String} {name : String}
    (h : taken.any (Text.sameName name) = false) (fuel k : Nat) :
    freshName taken name fuel k = name := by
  cases fuel with
  | zero => rfl
  | succ fuel => rw [freshName, if_neg (by rw [h]; decide)]

lemma distinctNames_of_distinct {taken : List String}
    (hdistinct : headings.Pairwise fun g h => Text.sameName h.1 g.1 = false)
    (htaken : ∀ h ∈ headings, taken.any (Text.sameName h.1) = false) :
    distinctNames taken headings = headings := by
  induction headings generalizing taken with
  | nil => rfl
  | cons h rest ih =>
    obtain ⟨name, a⟩ := h
    obtain ⟨hname, hrest⟩ := List.pairwise_cons.mp hdistinct
    rw [distinctNames, freshName_of_not_taken (htaken _ (List.mem_cons_self ..)),
      ih hrest fun h hh => ?_]
    rw [List.any_cons, hname h hh, htaken h (List.mem_cons_of_mem _ hh), Bool.or_false]

lemma cellsAt_all {row : List Cell} (headings : List Heading)
    (h : row.length = headings.length) :
    cellsAt (headings.zipIdx.map fun (c, i) => (i, c)) row = row := by
  refine List.ext_getElem (by simp [cellsAt, h]) fun i hi hi' => ?_
  simp [cellsAt, List.getElem?_eq_getElem hi']

lemma length_distinctNames (taken : List String) (headings : List Heading) :
    (distinctNames taken headings).length = headings.length := by
  induction headings generalizing taken with
  | nil => rfl
  | cons h rest ih => rw [distinctNames, List.length_cons, ih, List.length_cons]

end Binder

namespace Database

variable {db : Database} {hasPrincipal : Bool} {name : String}

lemma allRows_view {v : View} (ht : db.table? name = none) (hv : db.view? name = some v)
    {bound : BoundQuery}
    (hbound : (db.binder hasPrincipal).query [] v.query = .ok (bound, headings))
    (hne : headings ≠ []) :
    ∃ all, (db.binder hasPrincipal).query [] (allRows name) =
        .ok (all, Binder.distinctNames [] headings) ∧
      ∀ env, (∀ row ∈ bound.rows db env [], row.length = headings.length) →
        all.rows db env [] = bound.rows db env [] := by
  have hfind := (find_view_eq_ok ht hv).mpr ⟨_, hbound, rfl⟩
  have hempty : (Binder.distinctNames [] headings).isEmpty = false := by
    rw [← Bool.not_eq_true, List.isEmpty_iff_length_eq_zero, Binder.length_distinctNames]
    exact fun h => hne (List.length_eq_zero_iff.mp h)
  let s : Scope := ⟨name, Binder.distinctNames [] headings, false⟩
  have hshown : (db.binder hasPrincipal).outputs [s] [.all] = .ok (Binder.allColumns s) := by
    rw [Binder.outputs, Binder.output, Binder.outputs, hempty]
    exact congrArg Except.ok (List.append_nil _)
  have hfilter : (db.binder hasPrincipal).expr [s] (.int 1) = .ok (.const (.int 1), .none) := by
    rw [Binder.expr]
  refine ⟨_, Binder.select_eq_ok.mpr ⟨_, _, _, _, _, _, hfind, hshown, hfilter, rfl, ?_⟩,
    fun env hrows => ?_⟩
  · simp only [Binder.allColumns, List.map_map]
    exact List.zipIdx_map_fst 0 _
  · rw [BoundQuery.rows_select, Binder.allColumns_eq, BoundSource.rows]
    have hcells : ∀ row ∈ bound.rows db env [], BoundExpr.evalAll db env [row]
        (((s.columns.zipIdx.map fun (c, i) => (i, c)).map Binder.shownAt).map
          Binder.Shown.expr) = row := fun row hrow => by
      rw [Binder.evalAll_shownAt, Binder.cellsAt_all]
      rw [hrows row hrow, Binder.length_distinctNames]
    rw [List.filter_eq_self.mpr fun row _ => by rw [BoundExpr.eval]; rfl,
      List.map_congr_left hcells, List.map_id']

lemma select_eq_ok {env : Env} {sql : String} {q : Query} {rest : List Lexeme}
    (hparse : parse sql = .one (.query q) rest) {names : List String} {rows : List (List Cell)} :
    db.select hasPrincipal env sql = .ok (names, rows) ↔
      ∃ bound headings, (db.binder hasPrincipal).query [] q = .ok (bound, headings) ∧
        (q.params = env.params.length ∧ q.extent.nested ≤ maxDepth) ∧
        headings.map Prod.fst = names ∧ bound.rows db env [] = rows := by
  rw [select, prepare, hparse]
  constructor
  · intro h
    obtain ⟨p, hp, h⟩ := bind_eq_ok.mp h
    obtain ⟨hdepth, st, hst, rfl⟩ := prepareStatement_eq_ok.mp hp
    obtain ⟨⟨bound, headings⟩, hbound, hst⟩ := bind_eq_ok.mp hst
    cases hst
    obtain ⟨_, hparams, h⟩ := bind_eq_ok.mp h
    cases h
    exact ⟨bound, headings, hbound, ⟨beq_iff_eq.mp (ite_ok_eq_ok.mp hparams).1, hdepth⟩, rfl, rfl⟩
  · rintro ⟨bound, headings, hbound, ⟨hparams, hdepth⟩, rfl, rfl⟩
    refine bind_eq_ok.mpr ⟨⟨.query bound (headings.map Prod.fst), q.params, true⟩, ?_, ?_⟩
    · exact prepareStatement_eq_ok.mpr ⟨hdepth, .query bound (headings.map Prod.fst),
        bind_eq_ok.mpr ⟨(bound, headings), hbound, rfl⟩, rfl⟩
    · refine bind_eq_ok.mpr ⟨(), ?_, rfl⟩
      rw [checkParams, if_pos (beq_iff_eq.mpr hparams)]

lemma select_error {env : Env} {sql : String} (hparse : parse sql = .error)
    {result : List String × List (List Cell)} : db.select hasPrincipal env sql ≠ .ok result := by
  rw [select, prepare, hparse]
  intro h
  cases h

end Database

end RowPolicy
