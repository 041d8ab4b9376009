import RowPolicy.Proofs.Database.Binding
import RowPolicy.Proofs.Meaning
import RowPolicy.Proofs.Sql.Parsing

/-!
# Evaluation of conditions

The expression of a condition, once its names are bound, has the truth value of the condition. The
row is the one that the query looks at; the rows of a claim are those of the claim's view.
-/

namespace RowPolicy

open Sql

/-! ### Rows of a scope -/

namespace Scope

def cell (s : Scope) (frame : List Cell) (column : String) : Cell :=
  match Binder.columnOf? s column with
  | some (i, _) => frame.getD i .null
  | none => .null

def affinity (s : Scope) (column : String) : Affinity :=
  match Binder.columnOf? s column with
  | some (_, heading) => heading.2
  | none => .none

def values (s : Scope) (frame : List Cell) : RowValues := ⟨s.cell frame, s.affinity⟩

def claimRow (s : Scope) (frame : List Cell) : ClaimRow :=
  ⟨s.cell frame "principal_id", s.cell frame "related_id", s.cell frame⟩

/-- A column of the scope is not looked for further out: an outer scope of the same name has the
same columns. -/
def Covers (s : Scope) (outer : List Scope) : Prop :=
  ∀ o ∈ outer, Text.sameName o.name s.name = true → o.columns = s.columns ∧ o.hasRowId = s.hasRowId

end Scope

lemma Affinity.ofComparison_none (a : Affinity) : a.ofComparison .none = a := by
  cases a <;> rfl

lemma Cell.same_null (x : Cell) : x.same .null = x.isNull := by
  cases x <;> rfl

lemma Cell.isNull_textToNumber (x : Cell) : x.textToNumber.isNull = x.isNull := by
  cases x with
  | text s =>
    unfold Cell.textToNumber Cell.numberOfText?
    dsimp only
    split
    · rfl
    · cases Binary64.readMagnitude _ _ <;> rfl
  | _ => rfl

lemma Cell.sameWith_null (a : Affinity) (x : Cell) : Cell.sameWith a x .null = x.isNull := by
  unfold Cell.sameWith Cell.meet
  split_ifs
  · exact (Cell.same_null _).trans x.isNull_textToNumber
  · exact (Cell.same_null _).trans (by cases x <;> rfl)
  · exact Cell.same_null x

@[simp] lemma Truth.truth_toCell (t : Truth) : t.toCell.truth = t := by
  rcases t with _ | _ | _ <;> rfl

lemma Truth.and_true (t : Truth) : t.and (some true) = t := by
  rcases t with _ | _ | _ <;> rfl

lemma Truth.or_false (t : Truth) : t.or (some false) = t := by
  rcases t with _ | _ | _ <;> rfl

lemma BoundQuery.rows_select (db : Database) (env : Env) (frames : Frames)
    (outputs : List BoundExpr) (source : BoundSource) (filter : BoundExpr) :
    BoundQuery.rows db env frames (.select false outputs source filter) =
      ((source.rows db env).filter fun row =>
        (filter.eval db env (row :: frames)).truth == some true).map fun row =>
          BoundExpr.evalAll db env (row :: frames) outputs := by
  rw [BoundQuery.rows]
  rfl

namespace Binder

def claimRows (b : Binder) (db : Database) (env : Env) (view : String) : ClaimRows :=
  match b.find view with
  | .ok (source, headings, hasRowId) =>
    let s : Scope := ⟨view, headings, hasRowId⟩
    ⟨(source.rows db env).map s.claimRow, s.affinity "related_id", s.affinity⟩
  | .error _ => ⟨[], .none, fun _ => .none⟩

/-- The caller and the rows of every claim, as a statement sees them. -/
def surroundings (b : Binder) (db : Database) (env : Env) (n : Naming) : Surroundings :=
  ⟨env.principal, fun claim => b.claimRows db env (n.claimView claim)⟩

lemma claimRows_eq {b : Binder} (db : Database) (env : Env) {view : String}
    {source : BoundSource} {headings : List Heading} {hasRowId : Bool}
    (h : b.find view = .ok (source, headings, hasRowId)) :
    b.claimRows db env view =
      ⟨(source.rows db env).map (Scope.mk view headings hasRowId).claimRow,
        (Scope.mk view headings hasRowId).affinity "related_id",
        (Scope.mk view headings hasRowId).affinity⟩ := by
  rw [claimRows, h]

/-- No column of a claim's view is looked for in a row. -/
def ClaimsFit (b : Binder) (n : Naming) (s : Scope) : Prop :=
  ∀ claim source headings hasRowId, b.find (n.claimView claim) = .ok (source, headings, hasRowId) →
    (Scope.mk (n.claimView claim) headings hasRowId).Covers [s]

/-! ### Columns -/

lemma columnOf?_congr {s o : Scope} {column : String} (hcolumns : o.columns = s.columns)
    (hid : o.hasRowId = s.hasRowId) : columnOf? o column = columnOf? s column := by
  simp only [columnOf?, hcolumns, hid]

lemma lookup?_outer {s : Scope} {outer : List Scope} {column : String} (h : s.Covers outer)
    (hnone : columnOf? s column = none) (depth : Nat) :
    lookup? (some s.name) column depth outer = none := by
  induction outer generalizing depth with
  | nil => rfl
  | cons o outer ih =>
    have hrest := ih (fun p hp => h p (List.mem_cons_of_mem _ hp)) (depth + 1)
    rw [lookup?]
    by_cases hname : Text.sameName o.name s.name = true
    · obtain ⟨hcolumns, hid⟩ := h o (List.mem_cons_self ..) hname
      simp [hname, columnOf?_congr hcolumns hid, hnone, hrest]
    · simp [hname, hrest]

lemma lookup?_own {s : Scope} {outer : List Scope} (h : s.Covers outer) (column : String) :
    lookup? (some s.name) column 0 (s :: outer) =
      (columnOf? s column).map fun found => (.column 0 found.1, found.2) := by
  rw [lookup?]
  simp only [Text.sameName_self, if_true]
  cases hcolumn : columnOf? s column with
  | some found => rfl
  | none => exact lookup?_outer h hcolumn 1

lemma expr_column (b : Binder) (scopes : List Scope) (row column : String) :
    b.expr scopes (.column (some row) column false) =
      match lookup? (some row) column 0 scopes with
      | some (e, heading) => .ok (e, heading.2)
      | none => .error .invalid := by
  rw [expr.eq_def]
  dsimp only
  rcases lookup? (some row) column 0 scopes with _ | ⟨e, heading⟩ <;> rfl

/-- A selection from a table or a view: its rows, its columns and its condition are bound. -/
lemma query_named (b : Binder) (scopes : List Scope) (distinct : Bool) (os : List Output)
    (name : String) (e : Sql.Expr) :
    b.query scopes (.select distinct os (.named name none) e) = (do
      let (rows, headings, hasRowId) ← b.find name
      let shown ← b.outputs (⟨name, headings, hasRowId⟩ :: scopes) os
      let (filter, _) ← b.expr (⟨name, headings, hasRowId⟩ :: scopes) e
      pure (.select distinct (shown.map Shown.expr) rows filter, shown.map Shown.heading)) := by
  rw [query, source]
  cases b.find name <;> rfl

section

variable {b : Binder} {db : Database} {env : Env} {s : Scope} {outer : List Scope} {e : Sql.Expr}
  {bound : BoundExpr} {a : Affinity} {column : String}

lemma column_eq_ok (db : Database) (env : Env) (hcovers : s.Covers outer)
    (h : b.expr (s :: outer) (.column (some s.name) column false) = .ok (bound, a)) :
    a = s.affinity column ∧
      ∀ frame frames, bound.eval db env (frame :: frames) = s.cell frame column := by
  unfold Scope.affinity Scope.cell
  rw [expr_column, lookup?_own hcovers] at h
  cases hcolumn : columnOf? s column with
  | some found =>
    simp only [hcolumn, Option.map_some] at h
    cases h
    refine ⟨rfl, fun frame frames => ?_⟩
    rw [BoundExpr.eval]
    rfl
  | none =>
    simp only [hcolumn, Option.map_none] at h
    cases h

lemma literal_eq (scopes : List Scope) (v : Literal) :
    b.expr scopes v.toExpr = .ok (.const v.cell, .none) := by
  cases v with
  | int i =>
    rw [Literal.toExpr, Literal.cell]
    split <;> rw [expr]
  | _ => rw [Literal.toExpr, Literal.cell, expr]

lemma literals_eq (scopes : List Scope) (vs : List Literal) :
    b.exprs scopes (vs.map Literal.toExpr) = .ok (vs.map fun v => .const v.cell) := by
  induction vs with
  | nil => rw [List.map_nil, exprs, List.map_nil]
  | cons v rest ih =>
    rw [List.map_cons, exprs, literal_eq, ih]
    rfl

lemma evalAll_const (frames : Frames) (vs : List Literal) :
    BoundExpr.evalAll db env frames (vs.map fun v => .const v.cell) = vs.map Literal.cell := by
  induction vs with
  | nil => rw [List.map_nil, BoundExpr.evalAll, List.map_nil]
  | cons v rest ih => rw [List.map_cons, BoundExpr.evalAll, BoundExpr.eval, ih, List.map_cons]

/-! ### Comparisons -/

lemma caller_eq_ok (hcovers : s.Covers outer)
    (h : b.expr (s :: outer) (.compare .eq (.cast (.column (some s.name) column false) "TEXT")
      (.call "tg_principal" [])) = .ok (bound, a)) (frame : List Cell) (frames : Frames) :
    bound.eval db env (frame :: frames) =
      (Cell.compareWith .eq .text (s.cell frame column).castText
        (principalCell env.principal)).toCell := by
  rw [expr] at h
  obtain ⟨⟨l, la⟩, hleft, h⟩ := bind_eq_ok.mp h
  obtain ⟨⟨r, ra⟩, hright, h⟩ := bind_eq_ok.mp h
  cases h
  rw [expr] at hleft
  obtain ⟨⟨c, ca⟩, hcolumn, hleft⟩ := bind_eq_ok.mp hleft
  have htext : (Affinity.ofType "TEXT" == .text) = true := by decide
  simp only [htext, if_true] at hleft
  cases hleft
  rw [expr] at hright
  split at hright
  · cases hright
    have heval := (column_eq_ok db env hcovers hcolumn).2 frame frames
    have hprincipal : BoundExpr.principal.eval db env (frame :: frames) =
        principalCell env.principal := by
      rw [BoundExpr.eval]
      rfl
    rw [BoundExpr.eval, hprincipal, BoundExpr.eval, heval]
    rfl
  · cases hright

lemma among_eq_ok (hcovers : s.Covers outer) {allowed : List Literal}
    (h : b.expr (s :: outer) (.inList false (.column (some s.name) column false)
      (allowed.map Literal.toExpr)) = .ok (bound, a)) (frame : List Cell) (frames : Frames) :
    bound.eval db env (frame :: frames) =
      (Cell.among (s.affinity column) (s.cell frame column)
        (allowed.map Literal.cell)).toCell := by
  rw [expr] at h
  obtain ⟨⟨x, xa⟩, hcolumn, h⟩ := bind_eq_ok.mp h
  obtain ⟨items, hitems, h⟩ := bind_eq_ok.mp h
  cases h
  obtain ⟨rfl, heval⟩ := column_eq_ok db env hcovers hcolumn
  rw [literals_eq] at hitems
  cases hitems
  rw [BoundExpr.eval, heval, evalAll_const]
  rfl

lemma literal_eq_ok (hcovers : s.Covers outer) {v : Literal}
    (h : b.expr (s :: outer) (Fragment.literalExpr s.name column v) = .ok (bound, a))
    (frame : List Cell) (frames : Frames) :
    bound.eval db env (frame :: frames) =
      (Fragment.literalTruth (s.values frame) column v).toCell := by
  by_cases hnull : v = .null
  · subst hnull
    rw [Fragment.literalExpr, expr] at h
    obtain ⟨⟨x, xa⟩, hcolumn, h⟩ := bind_eq_ok.mp h
    rw [expr] at h
    cases h
    obtain ⟨rfl, heval⟩ := column_eq_ok db env hcovers hcolumn
    rw [BoundExpr.eval, heval, BoundExpr.eval, Cell.sameWith_null, Fragment.literalTruth,
      Scope.values, Bool.bne_false]
  · rw [Fragment.literalExpr, expr, literal_eq] at h
    · obtain ⟨⟨x, xa⟩, hcolumn, h⟩ := bind_eq_ok.mp h
      cases h
      obtain ⟨rfl, heval⟩ := column_eq_ok db env hcovers hcolumn
      rw [BoundExpr.eval, heval, BoundExpr.eval, Affinity.ofComparison_none,
        Fragment.literalTruth, Scope.values]
      exact hnull
    · exact hnull

/-! ### Lookups -/

lemma admits_eq_ok (hcovers : s.Covers outer) {lookup : Lookup}
    (h : b.expr (s :: outer) (lookup.filterExpr s.name) = .ok (bound, a)) {w : Surroundings}
    (hcaller : w.principal = env.principal)
    (hproperty : (w.claims lookup.claim).property = s.affinity)
    (frame : List Cell) (frames : Frames) :
    bound.eval db env (frame :: frames) = (w.admits lookup (s.claimRow frame)).toCell := by
  rw [Lookup.filterExpr] at h
  unfold Surroundings.admits
  cases hlookup : lookup.property with
  | none =>
    rw [hlookup] at h
    simp only [Surroundings.isCaller, hcaller]
    exact caller_eq_ok hcovers h frame frames
  | some filter =>
    rw [hlookup] at h
    rw [expr, exprs, exprs, exprs] at h
    obtain ⟨es, hes, h⟩ := bind_eq_ok.mp h
    cases h
    obtain ⟨⟨own, oa⟩, hown, hes⟩ := bind_eq_ok.mp hes
    obtain ⟨rest, hrest, hes⟩ := bind_eq_ok.mp hes
    cases hes
    obtain ⟨⟨found, fa⟩, hfound, hrest⟩ := bind_eq_ok.mp hrest
    cases hrest
    simp only [BoundExpr.eval, BoundExpr.allTrue, caller_eq_ok hcovers hown,
      among_eq_ok hcovers hfound, Truth.truth_toCell, Truth.and_true, Surroundings.isCaller,
      hcaller, hproperty]
    rfl

variable {n : Naming}

lemma related_eq_ok (db : Database) (env : Env) (hfits : b.ClaimsFit n s) {lookup : Lookup}
    {title : String} {q : BoundQuery} {headings : List Heading}
    (h : b.query [s] (lookup.toQuery (n.claimView lookup.claim) title) = .ok (q, headings)) :
    (∃ name, headings =
      [(name, ((b.surroundings db env n).claims lookup.claim).related)]) ∧
    ∀ frame, (q.rows db env [frame]).map (fun row => row.headD .null) =
      (b.surroundings db env n).relatedIds lookup := by
  rw [Lookup.toQuery, query_named] at h
  obtain ⟨⟨rows, columns, hasRowId⟩, hfind, h⟩ := bind_eq_ok.mp h
  obtain ⟨shown, hshown, h⟩ := bind_eq_ok.mp h
  obtain ⟨⟨filter, fa⟩, hfilter, h⟩ := bind_eq_ok.mp h
  cases h
  rw [outputs, output, outputs] at hshown
  obtain ⟨shown', hshown', hshown⟩ := bind_eq_ok.mp hshown
  cases hshown
  obtain ⟨⟨related, ra⟩, hrelated, hshown'⟩ := bind_eq_ok.mp hshown'
  cases hshown'
  have hcovers := hfits _ _ _ _ hfind
  have hclaims : (b.surroundings db env n).claims lookup.claim = _ :=
    claimRows_eq db env hfind
  obtain ⟨rfl, heval⟩ := column_eq_ok db env hcovers hrelated
  refine ⟨⟨_, by rw [hclaims]; rfl⟩, fun frame => ?_⟩
  have hadmits : ∀ row, (filter.eval db env [row, frame]).truth =
      (b.surroundings db env n).admits lookup
        ((Scope.mk (n.claimView lookup.claim) columns hasRowId).claimRow row) := fun row => by
    rw [admits_eq_ok hcovers hfilter rfl (by rw [hclaims]) row [frame], Truth.truth_toCell]
  simp only [BoundQuery.rows_select, hadmits, Surroundings.relatedIds]
  rw [hclaims, List.filter_map, List.map_map, List.map_map]
  refine List.map_congr_left fun row _ => ?_
  have hids : BoundExpr.evalAll db env [row, frame] [related] =
      [(Scope.mk (n.claimView lookup.claim) columns hasRowId).cell row "related_id"] := by
    rw [BoundExpr.evalAll, BoundExpr.evalAll, heval]
  exact congrArg (·.headD .null) hids

lemma claim_eq_ok (hfits : b.ClaimsFit n s) {lookup : Lookup} {title : String}
    (h : b.expr [s] (.inQuery false (.column (some s.name) column false)
      (lookup.toQuery (n.claimView lookup.claim) title)) = .ok (bound, a)) (frame : List Cell) :
    bound.eval db env [frame] =
      (Fragment.truth (b.surroundings db env n) (s.values frame)
        (.inClaim column lookup)).toCell := by
  rw [expr] at h
  obtain ⟨⟨x, xa⟩, hcolumn, h⟩ := bind_eq_ok.mp h
  obtain ⟨⟨q, headings⟩, hquery, h⟩ := bind_eq_ok.mp h
  obtain ⟨⟨name, rfl⟩, hrows⟩ := related_eq_ok db env hfits hquery
  cases h
  obtain ⟨rfl, heval⟩ := column_eq_ok db env (fun _ h => absurd h (List.not_mem_nil)) hcolumn
  rw [BoundExpr.eval, heval, hrows, Fragment.truth]
  rfl

/-! ### Conditions -/

lemma denotes_of_one {row : String} {f : Fragment} {es : List Sql.Expr}
    (h : Fragment.DenoteAll n row [f] es) : ∃ e, es = [e] ∧ f.Denotes n row e := by
  simp only [Fragment.DenoteAll] at h
  obtain ⟨e, more, he, rfl, rfl⟩ := h
  exact ⟨e, rfl, he⟩

lemma chain_of_several {row : String} {f g : Fragment} {fs : List Fragment}
    {es : List Sql.Expr} (h : Fragment.DenoteAll n row (f :: g :: fs) es)
    (wrap : List Sql.Expr → Sql.Expr) : chain wrap es = wrap es := by
  simp only [Fragment.DenoteAll] at h
  obtain ⟨e, more, -, ⟨e', more', -, -, rfl⟩, rfl⟩ := h
  rfl

mutual

/-- A bound condition has the truth value of the condition. -/
lemma fragment_eq_ok (hfits : b.ClaimsFit n s) {f : Fragment} {e : Sql.Expr} {bound : BoundExpr}
    {a : Affinity} (hf : f.Denotes n s.name e) (h : b.expr [s] e = .ok (bound, a))
    (frame : List Cell) :
    bound.eval db env [frame] =
      (f.truth (b.surroundings db env n) (s.values frame)).toCell := by
  have hcovers : s.Covers [] := fun _ h => absurd h (List.not_mem_nil)
  match f with
  | .always | .never =>
    rw [Fragment.Denotes] at hf
    subst hf
    rw [expr] at h
    cases h
    rw [BoundExpr.eval, Fragment.truth]
    rfl
  | .literalEq column value =>
    rw [Fragment.Denotes] at hf
    subst hf
    rw [Fragment.truth]
    exact literal_eq_ok hcovers h frame []
  | .principalEq column =>
    rw [Fragment.Denotes] at hf
    subst hf
    rw [Fragment.truth]
    exact caller_eq_ok hcovers h frame []
  | .inClaim column lookup =>
    rw [Fragment.Denotes] at hf
    obtain ⟨title, rfl⟩ := hf
    exact claim_eq_ok hfits h frame
  | .all [] | .any [] =>
    rw [Fragment.Denotes] at hf
    obtain ⟨es, -, rfl⟩ := hf
    rw [List.isEmpty_nil, if_pos rfl, expr] at h
    cases h
    simp only [BoundExpr.eval, Fragment.truth, Fragment.truthOfAll, Fragment.truthOfAny]
    rfl
  -- A condition alone in its list is written without a chain.
  | .all [f] | .any [f] =>
    rw [Fragment.Denotes] at hf
    obtain ⟨es, hes, rfl⟩ := hf
    obtain ⟨e, rfl, he⟩ := denotes_of_one hes
    simp only [Fragment.truth, Fragment.truthOfAll, Fragment.truthOfAny, Truth.and_true,
      Truth.or_false]
    exact fragment_eq_ok hfits he h frame
  | .all (f :: g :: rest) =>
    rw [Fragment.Denotes] at hf
    obtain ⟨es, hes, rfl⟩ := hf
    rw [List.isEmpty_cons, if_neg (by decide), chain_of_several hes, expr] at h
    obtain ⟨bounds, hbounds, h⟩ := bind_eq_ok.mp h
    cases h
    rw [BoundExpr.eval, Fragment.truth, (fragments_eq_ok hfits hes hbounds frame).1]
  | .any (f :: g :: rest) =>
    rw [Fragment.Denotes] at hf
    obtain ⟨es, hes, rfl⟩ := hf
    rw [List.isEmpty_cons, if_neg (by decide), chain_of_several hes, expr] at h
    obtain ⟨bounds, hbounds, h⟩ := bind_eq_ok.mp h
    cases h
    rw [BoundExpr.eval, Fragment.truth, (fragments_eq_ok hfits hes hbounds frame).2]

lemma fragments_eq_ok (hfits : b.ClaimsFit n s) {fs : List Fragment} {es : List Sql.Expr}
    {bounds : List BoundExpr} (hf : Fragment.DenoteAll n s.name fs es)
    (h : b.exprs [s] es = .ok bounds) (frame : List Cell) :
    BoundExpr.allTrue db env [frame] bounds =
        Fragment.truthOfAll (b.surroundings db env n) (s.values frame) fs ∧
      BoundExpr.anyTrue db env [frame] bounds =
        Fragment.truthOfAny (b.surroundings db env n) (s.values frame) fs := by
  match fs with
  | [] =>
    rw [Fragment.DenoteAll] at hf
    subst hf
    rw [exprs] at h
    cases h
    rw [BoundExpr.allTrue, BoundExpr.anyTrue, Fragment.truthOfAll, Fragment.truthOfAny]
    exact ⟨rfl, rfl⟩
  | f :: rest =>
    rw [Fragment.DenoteAll] at hf
    obtain ⟨e, more, he, hmore, rfl⟩ := hf
    rw [exprs] at h
    obtain ⟨⟨x, xa⟩, hx, h⟩ := bind_eq_ok.mp h
    obtain ⟨xs, hxs, h⟩ := bind_eq_ok.mp h
    cases h
    obtain ⟨hall, hany⟩ := fragments_eq_ok hfits hmore hxs frame
    rw [BoundExpr.allTrue, BoundExpr.anyTrue, Fragment.truthOfAll, Fragment.truthOfAny,
      fragment_eq_ok hfits he hx frame, Truth.truth_toCell, hall, hany]
    exact ⟨rfl, rfl⟩

end

end

/-! ### Rows that conditions are judged on -/

/-- No column of a claim's view is looked for in a row of a table or a view. -/
lemma claimsFit_of_find {db : Database} {hasPrincipal : Bool} {name : String} {rows : BoundSource}
    {columns : List Heading} {hasRowId : Bool}
    (h : (db.binder hasPrincipal).find name = .ok (rows, columns, hasRowId)) (n : Naming) :
    (db.binder hasPrincipal).ClaimsFit n ⟨name, columns, hasRowId⟩ := by
  intro claim source headings hasRowId' hclaim o ho hsame
  obtain rfl := List.mem_singleton.mp ho
  rw [← Database.find_congr hsame, h] at hclaim
  cases hclaim
  exact ⟨rfl, rfl⟩

/-- No column of a claim's view is looked for in a candidate value. -/
lemma claimsFit_candidate (b : Binder) (n : Naming) (columns : List Heading) (hasRowId : Bool) :
    b.ClaimsFit n ⟨"candidate", columns, hasRowId⟩ := by
  intro claim source headings hasRowId' _ o ho hsame
  obtain rfl := List.mem_singleton.mp ho
  have hfold : Text.foldCase "candidate" = Text.foldCase (n.claimView claim) := eq_of_beq hsame
  have hmark : '_' ∈ (Text.foldCase (n.claimView claim)).toList := by
    simp only [Text.foldCase, Naming.claimView, String.toList_ofList, String.toList_append,
      List.map_append, List.mem_append]
    exact .inl (.inr (by decide))
  rw [← hfold] at hmark
  exact absurd hmark (by decide)

end Binder

end RowPolicy
