import RowPolicy.Proofs.Access.Addressing
import RowPolicy.Proofs.Access.Memberships
import RowPolicy.Proofs.Decomposition
import RowPolicy.Proofs.Sql.Intact

/-!
# The first check that is not passed

A fetch goes through the checks of its rule in the order in which the predicate declares them. The
first check that does not accept the value given for its column decides how the fetch fails, and no
row of the table has been looked at by then. If all checks are passed, the fetch yields the rows
that have the given values.
-/

namespace RowPolicy

open Sql Naming

/-! ### Leaves of a predicate -/

namespace Predicate

/-- The condition that a leaf asks for. -/
def condition? : Predicate → Option Condition
  | .literalEq column value => some (.baked column value)
  | .identityEq column => some (.check ⟨column, .principal⟩)
  | .membership column claim => some (.check ⟨column, .member ⟨claim, none⟩⟩)
  | .propertyCheck column claim property allowed =>
    some (.check ⟨column, .member ⟨claim, some ⟨property, allowed⟩⟩⟩)
  | .and _ => none
  | .or _ => none

def leafList (p : Predicate) : List Condition := p.leaves.filterMap condition?

lemma conditions_of_tests {cs : List Condition} {leaves : List Predicate}
    (h : List.Forall₂ Condition.Tests cs leaves) : leaves.filterMap condition? = cs := by
  induction h with
  | nil => rfl
  | @cons c leaf _ _ htest _ ih =>
    have hleaf : leaf.condition? = some c := by cases htest <;> rfl
    rw [List.filterMap_cons_some hleaf, ih]

lemma leafList_of_leaves? {p : Predicate} {cs : List Condition} (h : p.leaves? = some cs) :
    p.leafList = cs :=
  conditions_of_tests (tests_of_leaves? h)

end Predicate

def Rule.checkList (r : Rule) : List Check :=
  ((r.predicate.map Predicate.leafList).getD []).filterMap Condition.check?

lemma Rule.checks_accessor {r : Rule} {t : TableShape} {a : Accessor}
    (h : r.accessor t = .ok a) : a.checks = r.checkList := by
  unfold checkList Accessor.checks
  obtain ⟨-, -, ⟨hp, hc⟩ | ⟨p, hp, hc⟩⟩ := Rule.accessor_eq_ok h
  · rw [hp, hc]
    rfl
  · rw [hp, Option.map_some, Option.getD_some, Predicate.leafList_of_leaves? hc]

/-- The parameters of an accessor are the checked columns, each where it appears first. -/
lemma Accessor.parameters_eq (a : Accessor) :
    a.parameters = (a.checks.map Check.column).eraseDups := by
  unfold parameters
  induction a.checks.map Check.column using List.reverseRecOn with
  | nil => rfl
  | append_singleton columns column ih =>
    have hmem : column ∈ columns.foldl addColumn [] ↔ column ∈ columns :=
      mem_foldl_addColumn.trans (or_iff_right List.not_mem_nil)
    rw [List.foldl_append, List.foldl_cons, List.foldl_nil, List.eraseDups_append, ← ih, addColumn]
    by_cases hc : column ∈ columns
    · simp [hmem, hc, List.removeAll]
    · simp [hmem, hc, List.removeAll, List.eraseDups_cons]

/-! ### Given values -/

namespace Check

variable {c : Check} {table : String} {w w' : Surroundings} {params : Json.Fields}

/-- The check accepts the value that is given for its column. -/
def Passes (w : Surroundings) (params : Json.Fields) (c : Check) : Prop :=
  ∃ value x, Json.Fields.get? c.column params = some value ∧ Cell.ofJson? value = some x ∧
    c.Accepts w .none x

/-- Why the check is not passed: there is no value for its column, the value is an array or an
object, or the check does not accept it. -/
inductive Refuses (table : String) (w : Surroundings) (params : Json.Fields) (c : Check) :
    AccessError → Prop
  | missing (hnone : Json.Fields.get? c.column params = none) :
      Refuses table w params c (.missingParameter table c.column)
  | unsupported {value : Json} (hsome : Json.Fields.get? c.column params = some value)
      (hvalue : value.isScalar = false) : Refuses table w params c (.unsupportedValue c.column)
  | unauthorized {value : Json} {x : Cell} (hsome : Json.Fields.get? c.column params = some value)
      (hvalue : Cell.ofJson? value = some x) (hnot : ¬ c.Accepts w .none x) :
      Refuses table w params c (.unauthorized table c.column c.describe)

lemma ofJson?_eq_none {value : Json} : Cell.ofJson? value = none ↔ value.isScalar = false := by
  cases value <;> simp [Cell.ofJson?, Json.isScalar]

lemma passes_or_refuses (c : Check) (table : String) (w : Surroundings) (params : Json.Fields) :
    c.Passes w params ∨ ∃ e, c.Refuses table w params e := by
  cases hsome : Json.Fields.get? c.column params with
  | none => exact .inr ⟨_, .missing hsome⟩
  | some value =>
    cases hvalue : Cell.ofJson? value with
    | none => exact .inr ⟨_, .unsupported hsome (ofJson?_eq_none.mp hvalue)⟩
    | some x =>
      by_cases haccepts : c.Accepts w .none x
      · exact .inl ⟨value, x, hsome, hvalue, haccepts⟩
      · exact .inr ⟨_, .unauthorized hsome hvalue haccepts⟩

/-- Going through checks in order, either all of them are passed or there is a first one that is
not. -/
lemma passes_or_first_refuses (table : String) (w : Surroundings) (params : Json.Fields)
    (checks : List Check) :
    (∀ c ∈ checks, c.Passes w params) ∨ ∃ before c after e, checks = before ++ c :: after ∧
      (∀ c' ∈ before, c'.Passes w params) ∧ c.Refuses table w params e := by
  induction checks with
  | nil => exact .inl (by simp)
  | cons c rest ih =>
    obtain hpasses | ⟨e, he⟩ := c.passes_or_refuses table w params
    · obtain hall | ⟨before, c', after, e, rfl, hbefore, he⟩ := ih
      · exact .inl (List.forall_mem_cons.mpr ⟨hpasses, hall⟩)
      · exact .inr ⟨c :: before, c', after, e, rfl, List.forall_mem_cons.mpr ⟨hpasses, hbefore⟩, he⟩
    · exact .inr ⟨[], c, rest, e, rfl, by simp, he⟩

lemma passes_congr (h : ∀ x, c.Accepts w .none x ↔ c.Accepts w' .none x) :
    c.Passes w params ↔ c.Passes w' params := by
  simp only [Passes, h]

lemma Refuses.congr {e : AccessError} (hrefuses : c.Refuses table w params e)
    (h : ∀ x, c.Accepts w .none x ↔ c.Accepts w' .none x) : c.Refuses table w' params e := by
  cases hrefuses with
  | missing hnone => exact .missing hnone
  | unsupported hsome hvalue => exact .unsupported hsome hvalue
  | unauthorized hsome hvalue hnot => exact .unauthorized hsome hvalue (by rwa [← h])

end Check

/-! ### Checks one by one -/

namespace Binder

variable {b : Binder} {n : Naming}

/-- The query of a check can be bound if what the check looks up is there. -/
lemma exists_query_check {c : Check} {e : Sql.Expr} (title inner : String)
    (he : c.fragment.Denotes n "candidate" e) (h : c.IsBacked b n) :
    ∃ bound headings, b.query [] (.select false [.expr e none title]
      (.query (candidateQuery c.column inner) (some "candidate")) (.int 1)) =
        .ok (bound, headings) := by
  have hfits : b.ClaimsFit n (candidateScope c.column) := claimsFit_candidate b n _ _
  have hhas : (candidateScope c.column).Has c.column := ⟨_, columnOf?_candidate c.column⟩
  obtain ⟨⟨x, a⟩, hx⟩ := isOk_iff.mp
    ((fragment_isOk hfits he).mpr (Check.resolves_iff.mpr ⟨hhas, h⟩))
  rw [query, source, query_candidate]
  change ∃ bound headings, (b.outputs [candidateScope c.column] _ >>= _) = _
  rw [outputs_one.mpr ⟨_, _, hx, rfl⟩, ok_bind, expr]
  exact ⟨_, _, rfl⟩

lemma exprs_isOk {s : Scope} {es : List Sql.Expr} :
    (b.exprs [s] es).isOk = true ↔ ∀ e ∈ es, (b.expr [s] e).isOk = true := by
  induction es with
  | nil =>
    rw [exprs]
    exact iff_of_true rfl (by simp)
  | cons e rest ih =>
    rw [exprs, List.forall_mem_cons, ← ih]
    exact isOk_bind fun x _ => isOk_map fun _ _ => rfl

lemma chain_isOk {s : Scope} {es : List Sql.Expr} :
    (b.expr [s] (chain .and es)).isOk = true ↔ ∀ e ∈ es, (b.expr [s] e).isOk = true := by
  rw [chain.eq_def]
  split
  next e => rw [List.forall_mem_singleton]
  next =>
    rw [expr, ← exprs_isOk]
    exact isOk_map fun _ _ => rfl

/-- The condition of an accessor's query can be bound if the columns that it names are there. -/
lemma accessorFilter_isOk {s : Scope} {a : Accessor} (hname : s.name = a.table)
    (hparameters : ∀ c ∈ a.parameters, s.Has c)
    (hbaked : ∀ column value, .baked column value ∈ a.conditions → s.Has column) :
    (b.expr [s] (n.accessorFilter a)).isOk = true := by
  rw [accessorFilter]
  split
  next => rw [expr]; rfl
  next =>
    rw [chain_isOk, mem_clauseExprs, ← hname]
    constructor
    · intro i c hi
      exact equation_isOk.mpr (hparameters c (List.mem_of_getElem? hi))
    · intro column value hmem
      exact (literal_isOk (covers_nil s)).mpr (hbaked column value hmem)

end Binder

/-! ### Parameters of statements -/

namespace Sql

lemma paramsAll_le {es : List Expr} {k : Nat} :
    Expr.paramsAll es ≤ k ↔ ∀ e ∈ es, e.params ≤ k := by
  induction es with
  | nil => simp [Expr.paramsAll]
  | cons e rest ih => rw [Expr.paramsAll, Nat.max_le, ih, List.forall_mem_cons]

lemma params_chain (es : List Expr) : (chain .and es).params = Expr.paramsAll es := by
  rw [chain.eq_def]
  split
  next e => simp [Expr.paramsAll]
  next => rw [Expr.params]

lemma params_projection {row : String} {columns : List String} {os : List Output}
    (h : IsProjection row columns os) : Output.paramsAll os = 0 := by
  unfold IsProjection at h
  split at h
  next =>
    subst h
    rfl
  next hne =>
    clear hne
    induction h with
    | nil => rfl
    | cons hfirst _ ih =>
      obtain ⟨title, rfl⟩ := hfirst
      rw [Output.paramsAll, ih]
      rfl

end Sql

lemma Naming.params_accessorFilter (n : Naming) (a : Accessor) :
    (n.accessorFilter a).params = a.parameters.length := by
  have hclauses : Expr.paramsAll ((n.clausePieces a).map fun p => p.2.2) = a.parameters.length := by
    apply Nat.le_antisymm
    · rw [paramsAll_le, Binder.mem_clauseExprs]
      constructor
      · intro i c hi
        have hlt : i < a.parameters.length := (List.getElem?_eq_some_iff.mp hi).1
        simp only [Expr.params]
        omega
      · intro column value _
        cases value <;> simp [Fragment.literalExpr, Expr.params, Literal.params_toExpr]
    · -- The last parameter is the one with the greatest number.
      obtain ⟨hall, -⟩ := Binder.mem_clauseExprs.mp (paramsAll_le.mp (Nat.le_refl
        (Expr.paramsAll ((n.clausePieces a).map fun p => p.2.2))))
      cases hlength : a.parameters.length with
      | zero => exact Nat.zero_le _
      | succ k =>
        have hlast := hall k _ (List.getElem?_eq_getElem (hlength ▸ Nat.lt_succ_self k))
        simpa [Expr.params] using hlast
  rw [accessorFilter]
  split
  next hempty =>
    rw [← hclauses, List.isEmpty_iff.mp hempty]
    rfl
  next => rw [params_chain, hclauses]

/-! ### Requests -/

lemma Check.isTrue_candidate {w : Surroundings} {c : Check} {x : Cell} :
    c.fragment.IsTrue w ((Binder.candidateScope c.column).values [x]) ↔ c.Accepts w .none x := by
  rw [isTrue_iff]
  simp [Scope.values, Scope.affinity, Scope.cell, Binder.columnOf?_candidate]

namespace Request

variable {q : Request} {db : Database} {n : Naming} {t : Table} {w : Surroundings}
  {params params' : Json.Fields} {c : Check} {e : AccessError}

/-- The query of a check tells whether the check accepts a value. -/
def Decides (q : Request) (db : Database) (n : Naming) (w : Surroundings) (c : Check) : Prop :=
  ∀ x, ∃ passed, q.holds db (n.renderCheck c).sql [x] = .ok passed ∧
    (passed = true ↔ c.Accepts w .none x)

lemma decides (hnull : NoNull (n.renderCheck c).sql.toList) (hfinite : c.fragment.IsFinite)
    (hfixed : (db.binder true).IsFixed db) (hbacked : c.IsBacked (db.binder true) n) :
    q.Decides db n (q.surroundings db n) c := by
  intro x
  obtain ⟨-, _, hparse, e, title, inner, rfl, he⟩ | ⟨hcut, -⟩ := parse_check n hfinite
  · obtain ⟨bound, headings, hbound⟩ := Binder.exists_query_check title inner he hbacked
    have hrows := (Binder.query_check db he hbound).2 x q.principal.id
    have hparams : (Query.select false [.expr e none title]
        (.query (candidateQuery c.column inner) (some "candidate")) (.int 1)).params =
          (q.env [x]).params.length := by
      simp [env, candidateQuery, Query.params, Output.paramsAll, Output.params, Source.params,
        Expr.params, Fragment.params_of_denotes he]
    have hselect := (Database.select_eq_ok hparse).mpr
      ⟨bound, headings, hbound, ⟨hparams, Check.nested_of_denotes he title inner⟩, rfl, hrows⟩
    refine ⟨_, holds_of_select hselect, ?_⟩
    rw [Binder.surroundings_fixed hfixed [x] [], beq_iff_eq]
    exact Check.isTrue_candidate
  · exact absurd hnull hcut

lemma param_of_get? {column : String} {value : Json} {x : Cell}
    (hsome : Json.Fields.get? column params = some value) (hvalue : Cell.ofJson? value = some x) :
    q.param params column = .ok x := by
  simp only [param, hsome, cellOf, hvalue]

lemma checkAll_of_passes (hdecides : q.Decides db n w c) (h : c.Passes w params)
    (rest : List RenderedCheck) :
    q.checkAll db params (n.renderCheck c :: rest) = q.checkAll db params rest := by
  obtain ⟨value, x, hsome, hvalue, haccepts⟩ := h
  obtain ⟨passed, hholds, hiff⟩ := hdecides x
  obtain rfl : passed = true := hiff.mpr haccepts
  have hparam : q.param params (n.renderCheck c).column = .ok x := param_of_get? hsome hvalue
  rw [checkAll, hparam, ok_bind, hholds, ok_bind]
  rfl

lemma checkAll_of_refuses (hdecides : q.Decides db n w c) (h : c.Refuses q.table w params e)
    (rest : List RenderedCheck) : q.checkAll db params (n.renderCheck c :: rest) = .error e := by
  rw [checkAll]
  cases h with
  | missing hnone =>
    have hparam : q.param params (n.renderCheck c).column =
        .error (.missingParameter q.table c.column) := by
      simp only [param, renderCheck, hnone]
    rw [hparam, error_bind]
  | unsupported hsome hvalue =>
    have hparam :
        q.param params (n.renderCheck c).column = .error (.unsupportedValue c.column) := by
      simp only [param, renderCheck, hsome, cellOf, Check.ofJson?_eq_none.mpr hvalue]
    rw [hparam, error_bind]
  | @unauthorized value x hsome hvalue hnot =>
    obtain ⟨passed, hholds, hiff⟩ := hdecides x
    obtain rfl : passed = false := Bool.eq_false_iff.mpr fun hpassed => hnot (hiff.mp hpassed)
    have hparam : q.param params (n.renderCheck c).column = .ok x := param_of_get? hsome hvalue
    rw [hparam, ok_bind, hholds, ok_bind]
    rfl

lemma checkAll_of_all_pass {checks : List Check} (hdecides : ∀ c ∈ checks, q.Decides db n w c)
    (h : ∀ c ∈ checks, c.Passes w params) (rest : List RenderedCheck) :
    q.checkAll db params (checks.map n.renderCheck ++ rest) = q.checkAll db params rest := by
  induction checks with
  | nil => rfl
  | cons c more ih =>
    obtain ⟨hfirst, hmore⟩ := List.forall_mem_cons.mp hdecides
    obtain ⟨hpasses, hall⟩ := List.forall_mem_cons.mp h
    rw [List.map_cons, List.cons_append, checkAll_of_passes hfirst hpasses, ih hmore hall]

lemma checkAll_of_first_refuses {before after : List Check}
    (hdecides : ∀ c' ∈ before ++ c :: after, q.Decides db n w c')
    (hbefore : ∀ c' ∈ before, c'.Passes w params) (h : c.Refuses q.table w params e) :
    q.checkAll db params ((before ++ c :: after).map n.renderCheck) = .error e := by
  rw [List.forall_mem_append, List.forall_mem_cons] at hdecides
  rw [List.map_append, List.map_cons, checkAll_of_all_pass hdecides.1 hbefore]
  exact checkAll_of_refuses hdecides.2.1 h _

lemma mapM_param {columns : List String}
    (h : ∀ c ∈ columns, ∃ x, q.param params c = .ok x) :
    columns.mapM (q.param params) = .ok (columns.map (q.given params)) := by
  induction columns with
  | nil => rfl
  | cons c rest ih =>
    obtain ⟨⟨x, hx⟩, hrest⟩ := List.forall_mem_cons.mp h
    rw [List.mapM_cons, hx, ok_bind, ih hrest, ok_bind, List.map_cons, given_eq hx]
    rfl

lemma mapM_param_congr {columns : List String}
    (h : ∀ c ∈ columns, q.param params' c = q.param params c) :
    columns.mapM (q.param params') = columns.mapM (q.param params) := by
  induction columns with
  | nil => rfl
  | cons c rest ih =>
    obtain ⟨hc, hrest⟩ := List.forall_mem_cons.mp h
    rw [List.mapM_cons, List.mapM_cons, hc, ih hrest]

lemma checkAll_params_congr {checks : List RenderedCheck}
    (h : ∀ c ∈ checks, q.param params' c.column = q.param params c.column) :
    q.checkAll db params' checks = q.checkAll db params checks := by
  induction checks with
  | nil => rfl
  | cons c rest ih =>
    obtain ⟨hc, hrest⟩ := List.forall_mem_cons.mp h
    rw [checkAll, checkAll, hc, ih hrest]

lemma select_accessor_eq {a : Accessor} {given : String → Cell}
    (hproper : IsProper (n.accessorQuery a))
    (hfinite : ∀ column value, .baked column value ∈ a.conditions → value.isFinite = true)
    (ht : db.table? a.table = some t)
    (hshown : ∃ shown, (t.scope t.name).project? a.projection = some shown)
    (hparameters : ∀ c ∈ a.parameters, (t.scope t.name).Has c)
    (hbaked : ∀ column value, .baked column value ∈ a.conditions → (t.scope t.name).Has column) :
    q.select db (n.accessorQuery a) (a.parameters.map given) =
      .ok ((t.rows.filter fun r => a.selects given (t.values r)).map (t.record a.projection)) := by
  obtain ⟨-, _, hparse, os, rfl, hos⟩ | ⟨hcut, -⟩ := parse_accessorQuery n hfinite
  · obtain ⟨places, hplaces⟩ := hshown
    obtain ⟨⟨filter, af⟩, hfilter⟩ := isOk_iff.mp (Binder.accessorFilter_isOk (b := db.binder true)
      (n := n) (s := t.scope a.table) rfl hparameters hbaked)
    have houtputs := Binder.outputs_projection (b := db.binder true) (s := t.scope a.table) hos
    rw [t.project?_scope, hplaces] at houtputs
    have hbound := Binder.select_eq_ok.mpr
      ⟨_, _, _, _, _, _, Database.find_table ht, houtputs, hfilter, rfl, rfl⟩
    have hparams : (Query.select false os (.named a.table none) (n.accessorFilter a)).params =
        (q.env (a.parameters.map given)).params.length := by
      simp [Query.params, Source.params, params_projection hos, params_accessorFilter, env]
    have hselect := Request.select_eq_ok.mpr
      ⟨_, _, (Database.select_eq_ok hparse).mpr ⟨_, _, hbound,
        ⟨hparams, (isShallow_iff hparse).mp hproper.shallow⟩, rfl, rfl⟩, rfl⟩
    have hgiven : ∀ i c, a.parameters[i]? = some c →
        (a.parameters.map given).getD i .null = given c := by
      intro i c hi
      simp [hi]
    rw [hselect]
    exact congrArg Except.ok (select_accessor ht hparse hos hgiven hselect).2.2
  · exact absurd hproper.whole hcut

lemma select_of_deep {sql : String} {cells : List Cell} (h : isShallow sql = false) :
    q.select db sql cells = .error (.store (.storage .invalid)) := by
  rw [select, Database.select, Database.prepare_of_deep h]
  rfl

end Request

/-! ### Rules in service -/

/-- If no null character is in the statement that creates the view of a read rule, none is in its
checks and in the query of its accessor. -/
lemma Naming.noNull_of_readView {n : Naming} {r : Rule} {t : TableShape} {a : Accessor}
    (ha : r.accessor t = .ok a)
    (h : NoNull (n.readViewSql ⟨t.name, r.projection, r.filter .always⟩).toList) :
    (∀ c ∈ a.checks, NoNull (n.renderCheck c).sql.toList) ∧
      NoNull (n.accessorQuery a).toList := by
  obtain ⟨htable, hprojection, -⟩ := Rule.accessor_eq_ok ha
  obtain ⟨hshown, hrow, hfilter⟩ := noNull_readView h
  dsimp only at hshown hrow hfilter
  rw [← htable] at hshown hrow hfilter
  rw [← hprojection] at hshown
  have hconditions : ∀ c ∈ a.conditions,
      NoNull (n.fragment (quoteName a.table) c.fragment).toList :=
    (Rule.filter_iff (P := fun f => NoNull (n.fragment (quoteName a.table) f).toList)
      (fun _ => noNull_all) (by simp [fragment]) ha).mp hfilter
  have hchecks : ∀ c ∈ a.checks, NoNull (quoteName c.column).toList ∧
      NoNull (n.renderCheck c).sql.toList :=
    fun c hc => noNull_check (hconditions (.check c) (Accessor.mem_checks.mp hc))
  refine ⟨fun c hc => (hchecks c hc).2, noNull_accessorQuery hshown hrow ?_ ?_⟩
  · intro column hcolumn
    obtain ⟨c, hc, rfl⟩ := Accessor.mem_parameters.mp hcolumn
    exact (hchecks c (Accessor.mem_checks.mpr hc)).1
  · intro column value hmem
    exact hconditions (.baked column value) hmem

namespace Naming.ServesFetch

variable {n : Naming} {q : Request} {db : Database} {r : Rule} {t : Table} {a : Accessor}

/-- No null character cuts the statements of the accessor off: the view was created with the same
names and literals. -/
lemma noNull (h : n.ServesFetch q db r t a) :
    (∀ c ∈ a.checks, NoNull (n.renderCheck c).sql.toList) ∧ NoNull (n.accessorQuery a).toList := by
  obtain ⟨query, rest, hparse, -⟩ := h.installed.exists_view
  have hfinite : (ReadView.mk t.name r.projection (r.filter .always)).filter.IsFinite := h.finite
  obtain ⟨hnull, -⟩ | ⟨-, herror⟩ := parse_readView n hfinite
  · exact noNull_of_readView h.accessor hnull
  · rw [herror] at hparse
    cases hparse

lemma decides (h : n.ServesFetch q db r t a)
    (hresolves : (r.filter .always).Resolves (db.binder true) n (t.scope t.name)) {c : Check}
    (hc : c ∈ a.checks) : q.Decides db n (q.surroundings db n) c := by
  have hcondition := Accessor.mem_checks.mp hc
  have hbacked := (Check.resolves_iff.mp ((Rule.filter_iff (fun _ => Fragment.resolveAll_iff)
    trivial h.accessor).mp hresolves _ hcondition)).2
  exact Request.decides (h.noNull.1 c hc) (h.condition_isFinite hcondition)
    (Database.binder_isFixed h.closed) hbacked

lemma select_eq (h : n.ServesFetch q db r t a) (hshallow : isShallow (n.accessorQuery a))
    (hresolves : (r.filter .always).Resolves (db.binder true) n (t.scope t.name))
    (given : String → Cell) :
    q.select db (n.accessorQuery a) (a.parameters.map given) =
      .ok ((t.rows.filter fun row => a.selects given (t.values row)).map
        (t.record r.projection)) := by
  obtain ⟨htable, hprojection, -⟩ := Rule.accessor_eq_ok h.accessor
  have hconditions := (Rule.filter_iff (fun _ => Fragment.resolveAll_iff) trivial
    h.accessor).mp hresolves
  have ht : db.table? a.table = some t := by
    rw [htable]
    exact h.table_name
  rw [← hprojection]
  refine Request.select_accessor_eq ⟨h.noNull.2, hshallow⟩
    (fun column value hc => h.condition_isFinite hc) ht (hprojection ▸ h.shown) ?_
    fun column value hc => hconditions _ hc
  intro column hcolumn
  obtain ⟨c, hc, rfl⟩ := Accessor.mem_parameters.mp hcolumn
  exact (Check.resolves_iff.mp (hconditions _ hc)).1

end Naming.ServesFetch

namespace Naming.Serves

variable {n : Naming} {q : Request} {db : Database} {r d : Rule} {t : Table} {a : Accessor}
  {params : Json.Fields}

lemma filter_resolves (h : n.Serves db r d t) :
    (d.filter .always).Resolves (db.binder true) n (t.scope t.name) ↔
      ∀ l ∈ d.lookups, (db.binder true).Knows n l := by
  obtain ⟨catalog, hresolves⟩ := h.resolves
  exact Rule.filter_resolves h.wellFormed rfl hresolves

/-- A fetch runs the checks of the accessor, binds its parameters and runs its query. -/
lemma fetch_eq (h : n.Serves db r d t) (hready : q.ready = true) (hq : q.table = r.table)
    (hread : r.operation = .read) (ha : d.accessor t.shape = .ok a) (params : Json.Fields) :
    q.fetch db params = (do
      q.checkAll db params (a.checks.map n.renderCheck)
      let cells ← a.parameters.mapM (q.param params)
      q.select db (n.accessorQuery a) cells) := by
  obtain ⟨f, hf, -⟩ | ⟨a', record, ha', hrecord, hbody⟩ := h.accessor_cases hready hq hread
  · cases ha.symm.trans hf
  · cases ha.symm.trans ha'
    exact Request.fetch_eq_of_artifact hrecord hbody

/-- The first check that is not passed decides how a fetch fails. -/
lemma fetch_of_refuses {before after : List Check} {c : Check} {e : AccessError}
    (h : n.Serves db r d t) (hcolumns : t.columns ≠ []) (hready : q.ready = true)
    (hq : q.table = r.table) (hread : r.operation = .read) (ha : d.accessor t.shape = .ok a)
    (hknows : ∀ l ∈ d.lookups, (db.binder true).Knows n l)
    (hsplit : d.checkList = before ++ c :: after)
    (hbefore : ∀ c' ∈ before, c'.Passes (q.surroundings db n) params)
    (he : c.Refuses r.table (q.surroundings db n) params e) : q.fetch db params = .error e := by
  have hserved := h.servesFetch hcolumns hready hq hread ha
  have hbound := h.filter_resolves.mpr hknows
  have hchecks : a.checks = before ++ c :: after := (Rule.checks_accessor ha).trans hsplit
  have hdecides : ∀ c' ∈ before ++ c :: after, q.Decides db n (q.surroundings db n) c' :=
    fun c' hc' => hserved.decides hbound (hchecks ▸ hc')
  rw [h.fetch_eq hready hq hread ha, hchecks,
    Request.checkAll_of_first_refuses hdecides hbefore (hq ▸ he), error_bind]

/-- If all checks are passed, each checked column has a value, and a fetch selects the rows that
have these values unless the query is too deep. -/
lemma fetch_of_passes (h : n.Serves db r d t) (hcolumns : t.columns ≠ [])
    (hready : q.ready = true) (hq : q.table = r.table) (hread : r.operation = .read)
    (ha : d.accessor t.shape = .ok a) (hknows : ∀ l ∈ d.lookups, (db.binder true).Knows n l)
    (hpasses : ∀ c ∈ d.checkList, c.Passes (q.surroundings db n) params) :
    a.parameters.mapM (q.param params) = .ok (a.parameters.map (q.given params)) ∧
    q.fetch db params = q.select db (n.accessorQuery a) (a.parameters.map (q.given params)) ∧
    (isShallow (n.accessorQuery a) → q.fetch db params = .ok ((t.rows.filter fun row =>
      a.selects (q.given params) (t.values row)).map (t.shownRow r.projection))) ∧
    (isShallow (n.accessorQuery a) = false →
      q.fetch db params = .error (.store (.storage .invalid))) := by
  have hserved := h.servesFetch hcolumns hready hq hread ha
  have hbound := h.filter_resolves.mpr hknows
  rw [← Rule.checks_accessor ha] at hpasses
  have hchecked : q.checkAll db params (a.checks.map n.renderCheck) = .ok () := by
    have hall := Request.checkAll_of_all_pass (fun c hc => hserved.decides hbound hc) hpasses []
    rwa [List.append_nil] at hall
  have hparams : a.parameters.mapM (q.param params) = .ok (a.parameters.map (q.given params)) := by
    apply Request.mapM_param
    intro column hcolumn
    obtain ⟨c, hc, rfl⟩ := Accessor.mem_parameters.mp hcolumn
    obtain ⟨value, x, hsome, hvalue, -⟩ := hpasses c (Accessor.mem_checks.mpr hc)
    exact ⟨x, Request.param_of_get? hsome hvalue⟩
  have hfetch : q.fetch db params =
      q.select db (n.accessorQuery a) (a.parameters.map (q.given params)) := by
    rw [h.fetch_eq hready hq hread ha, hchecked, ok_bind, hparams, ok_bind]
  refine ⟨hparams, hfetch, fun hshallow => ?_,
    fun hdeep => hfetch.trans (Request.select_of_deep hdeep)⟩
  rw [hfetch, hserved.select_eq hshallow hbound, ← h.projection_eq]
  exact congrArg Except.ok
    (List.map_congr_left fun row _ => (h.canShow hcolumns).record_eq_shownRow row)

lemma fetch_params_congr {params' : Json.Fields} (h : n.Serves db r d t)
    (hready : q.ready = true) (hq : q.table = r.table) (hread : r.operation = .read)
    (ha : d.accessor t.shape = .ok a)
    (hparams : ∀ c ∈ d.checkList,
      Json.Fields.get? c.column params' = Json.Fields.get? c.column params) :
    q.fetch db params' = q.fetch db params := by
  rw [← Rule.checks_accessor ha] at hparams
  have hparam : ∀ c ∈ a.checks, q.param params' c.column = q.param params c.column := by
    intro c hc
    rw [Request.param, Request.param, hparams c hc]
  have hcells : a.parameters.mapM (q.param params') = a.parameters.mapM (q.param params) := by
    apply Request.mapM_param_congr
    intro column hcolumn
    obtain ⟨c, hc, rfl⟩ := Accessor.mem_parameters.mp hcolumn
    exact hparam c (Accessor.mem_checks.mpr hc)
  rw [h.fetch_eq hready hq hread ha, h.fetch_eq hready hq hread ha, hcells,
    Request.checkAll_params_congr (List.forall_mem_map.mpr hparam)]

end Naming.Serves

lemma Surroundings.agrees_of_claims {w w' : Surroundings} {l : Lookup}
    (hcaller : w.principal = w'.principal) (h : w.claims l.claim = w'.claims l.claim) :
    w.Agrees w' l := by
  refine ⟨by rw [h], ?_⟩
  rw [relatedIds, relatedIds, h, admits_congr hcaller (by rw [h])]

/-- What a check of a rule accepts depends on the caller and on the claims that the rule refers
to. -/
lemma Rule.accepts_congr {r : Rule} {t : TableShape} {a : Accessor} {w w' : Surroundings}
    {c : Check} (ha : r.accessor t = .ok a) (hc : c ∈ r.checkList)
    (hcaller : w.principal = w'.principal)
    (h : ∀ claim, r.references claim = true → w.claims claim = w'.claims claim) (x : Cell) :
    c.Accepts w .none x ↔ c.Accepts w' .none x := by
  have hagrees : ∀ l ∈ r.lookups, w.Agrees w' l := fun l hl =>
    Surroundings.agrees_of_claims hcaller (h l.claim (Rule.references_iff.mpr ⟨l, hl, rfl⟩))
  have hconditions := (Rule.filter_iff (fun _ => Fragment.eachLookups_iff) trivial ha).mp
    (Rule.filter_eachLookup.mpr hagrees)
  rw [← Rule.checks_accessor ha] at hc
  have hlookups : c.fragment.EachLookup (w.Agrees w') := hconditions _ (Accessor.mem_checks.mp hc)
  unfold Check.Accepts Fragment.IsTrue
  rw [Fragment.truth_congr hcaller hlookups]

/-! ### Runs -/

namespace Admin

variable {n : Naming} {ids : Nat → Uuid} {user : Database} {past : List State} {x : State}

lemma roster_accepts {w : Surroundings} (hids : w.relatedIds ⟨"k", none⟩ = [.text "red"])
    (haffinity : (w.claims "k").related = .text) (x : Cell) :
    Check.Accepts w ⟨"team", .member ⟨"k", none⟩⟩ .none x ↔
      Cell.among .text x [.text "red"] = some true := by
  change Cell.among (.ofComparison (w.claims "k").related .none) x (w.relatedIds ⟨"k", none⟩) =
    some true ↔ _
  rw [hids, haffinity]
  rfl

end Admin

end RowPolicy
