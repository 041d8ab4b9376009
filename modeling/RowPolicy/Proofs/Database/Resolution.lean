import RowPolicy.Proofs.Database.Evaluation

/-!
# Conditions that can be bound

The expression of a condition is bound exactly if the row has the columns that it names and the
views of the claims have theirs. Which row it is bound in does not matter beyond that.
-/

namespace RowPolicy

open Sql

def Scope.Has (s : Scope) (column : String) : Prop :=
  ∃ found, Binder.columnOf? s column = some found

lemma isOk_bind {ε α β : Type} {x : Except ε α} {f : α → Except ε β} {p : Prop}
    (hf : ∀ a, x = .ok a → ((f a).isOk = true ↔ p)) :
    (x >>= f).isOk = true ↔ x.isOk = true ∧ p := by
  cases x with
  | error e => simp [bind, Except.bind, Except.isOk, Except.toBool]
  | ok a => exact (hf a rfl).trans (by simp [Except.isOk, Except.toBool])

lemma isOk_map {ε α β : Type} {x : Except ε α} {f : α → Except ε β}
    (hf : ∀ a, x = .ok a → (f a).isOk = true) : (x >>= f).isOk = true ↔ x.isOk = true :=
  (isOk_bind (p := True) fun a ha => iff_of_true (hf a ha) trivial).trans (by simp)

namespace Binder

variable {b : Binder} {n : Naming} {s : Scope} {outer : List Scope} {column : String}

/-! ### Comparisons -/

lemma column_isOk (hcovers : s.Covers outer) :
    (b.expr (s :: outer) (.column (some s.name) column false)).isOk = true ↔ s.Has column := by
  rw [expr_column, lookup?_own hcovers, Scope.Has]
  cases columnOf? s column <;> simp [Except.isOk, Except.toBool]

lemma caller_isOk (hcovers : s.Covers outer) :
    (b.expr (s :: outer) (.compare .eq (.cast (.column (some s.name) column false) "TEXT")
      (.call "tg_principal" []))).isOk = true ↔ s.Has column ∧ b.hasPrincipal = true := by
  have htext : (Affinity.ofType "TEXT" == .text) = true := by decide
  rw [expr, expr, expr]
  refine (isOk_bind fun x hx => isOk_map fun _ _ => rfl).trans (and_congr ?_ ?_)
  · refine (isOk_map fun x hx => ?_).trans (column_isOk hcovers)
    simp only [htext, if_true]
    rfl
  · simp only [Text.sameName_self, List.isEmpty_nil, Bool.and_true]
    cases b.hasPrincipal <;> simp [Except.isOk, Except.toBool]

lemma among_isOk (hcovers : s.Covers outer) {allowed : List Literal} :
    (b.expr (s :: outer) (.inList false (.column (some s.name) column false)
      (allowed.map Literal.toExpr))).isOk = true ↔ s.Has column := by
  rw [expr, literals_eq]
  exact (isOk_map fun _ _ => rfl).trans (column_isOk hcovers)

lemma literal_isOk (hcovers : s.Covers outer) {v : Literal} :
    (b.expr (s :: outer) (Fragment.literalExpr s.name column v)).isOk = true ↔ s.Has column := by
  by_cases hnull : v = .null
  · subst hnull
    rw [Fragment.literalExpr, expr, expr]
    exact (isOk_map fun _ _ => rfl).trans (column_isOk hcovers)
  · rw [Fragment.literalExpr, expr, literal_eq]
    · exact (isOk_map fun _ _ => rfl).trans (column_isOk hcovers)
    · exact hnull

/-! ### Lookups -/

/-- The columns of a claim's view that a lookup reads. -/
def readColumns (lookup : Lookup) : List String :=
  ["related_id", "principal_id"] ++ (lookup.property.map PropertyFilter.property).toList

/-- The view of a lookup's claim is there and has the columns that the lookup reads. -/
def Knows (b : Binder) (n : Naming) (lookup : Lookup) : Prop :=
  b.hasPrincipal = true ∧ ∃ source headings hasRowId,
    b.find (n.claimView lookup.claim) = .ok (source, headings, hasRowId) ∧
    ∀ c ∈ readColumns lookup, (Scope.mk (n.claimView lookup.claim) headings hasRowId).Has c

lemma admits_isOk (hcovers : s.Covers outer) {lookup : Lookup} :
    (b.expr (s :: outer) (lookup.filterExpr s.name)).isOk = true ↔
      b.hasPrincipal = true ∧ s.Has "principal_id" ∧
        ∀ filter, lookup.property = some filter → s.Has filter.property := by
  rw [Lookup.filterExpr]
  cases lookup.property with
  | none =>
    rw [ownExpr]
    exact (caller_isOk hcovers).trans (by simp [and_comm])
  | some filter =>
    simp only [Option.some.injEq, forall_eq']
    rw [expr, exprs, exprs, exprs]
    have hrest : (b.expr (s :: outer) (.inList false (.column (some s.name) filter.property false)
        (filter.allowed.map Literal.toExpr)) >>= fun x => pure [x.1]).isOk = true ↔
        s.Has filter.property := (isOk_map fun _ _ => rfl).trans (among_isOk hcovers)
    refine (isOk_map fun _ _ => rfl).trans
      ((isOk_bind (p := s.Has filter.property) fun x _ => ?_).trans ?_)
    · exact (isOk_map fun _ _ => rfl).trans hrest
    · rw [ownExpr, caller_isOk hcovers]
      exact ⟨fun h => ⟨h.1.2, h.1.1, h.2⟩, fun h => ⟨⟨h.2.1, h.1⟩, h.2.2⟩⟩

lemma knows_iff {lookup : Lookup} {source : BoundSource} {headings : List Heading}
    {hasRowId : Bool}
    (h : b.find (n.claimView lookup.claim) = .ok (source, headings, hasRowId)) :
    b.Knows n lookup ↔
      (Scope.mk (n.claimView lookup.claim) headings hasRowId).Has "related_id" ∧
      b.hasPrincipal = true ∧
      (Scope.mk (n.claimView lookup.claim) headings hasRowId).Has "principal_id" ∧
      ∀ filter, lookup.property = some filter →
        (Scope.mk (n.claimView lookup.claim) headings hasRowId).Has filter.property := by
  have hcolumns : ∀ c : Scope, (∀ x ∈ readColumns lookup, c.Has x) ↔
      c.Has "related_id" ∧ c.Has "principal_id" ∧
        ∀ filter, lookup.property = some filter → c.Has filter.property := fun c => by
    cases lookup with
    | mk claim property => cases property <;> simp [readColumns]
  unfold Knows
  constructor
  · rintro ⟨hprincipal, source', headings', hasRowId', hfind, hall⟩
    rw [h] at hfind
    cases hfind
    obtain ⟨hrelated, hown, hproperty⟩ := (hcolumns _).mp hall
    exact ⟨hrelated, hprincipal, hown, hproperty⟩
  · rintro ⟨hrelated, hprincipal, hown, hproperty⟩
    exact ⟨hprincipal, source, headings, hasRowId, h, (hcolumns _).mpr ⟨hrelated, hown, hproperty⟩⟩

/-- Whether the query of a lookup is bound depends on the claim's view only. -/
lemma related_isOk (hfits : b.ClaimsFit n s) {lookup : Lookup} {title : String} :
    (b.query [s] (lookup.toQuery (n.claimView lookup.claim) title)).isOk = true ↔
      b.Knows n lookup := by
  rw [Lookup.toQuery, query_named]
  cases hfind : b.find (n.claimView lookup.claim) with
  | error e =>
    refine iff_of_false (by rintro ⟨⟩) ?_
    rintro ⟨-, source, headings, hasRowId, h, -⟩
    rw [hfind] at h
    cases h
  | ok found =>
    obtain ⟨rows, headings, hasRowId⟩ := found
    have hcovers := hfits _ _ _ _ hfind
    refine Iff.trans ?_ (knows_iff hfind).symm
    change (b.outputs _ _ >>= _).isOk = true ↔ _
    refine (isOk_bind fun shown _ => ?_).trans (and_congr ?_ (admits_isOk hcovers))
    · exact isOk_map fun _ _ => rfl
    · rw [outputs, output, outputs]
      refine (isOk_map fun _ _ => rfl).trans ((isOk_map fun _ _ => rfl).trans ?_)
      exact column_isOk hcovers

end Binder

/-! ### Conditions -/

namespace Fragment

mutual

/-- The row has the columns of a condition, and the views of its claims have theirs. -/
def Resolves (b : Binder) (n : Naming) (s : Scope) : Fragment → Prop
  | .always => True
  | .never => True
  | .literalEq column _ => s.Has column
  | .principalEq column => s.Has column ∧ b.hasPrincipal = true
  | .inClaim column lookup => s.Has column ∧ b.Knows n lookup
  | .all children => ResolveAll b n s children
  | .any children => ResolveAll b n s children

def ResolveAll (b : Binder) (n : Naming) (s : Scope) : List Fragment → Prop
  | [] => True
  | f :: rest => Resolves b n s f ∧ ResolveAll b n s rest

end

lemma resolveAll_iff {b : Binder} {n : Naming} {s : Scope} {fs : List Fragment} :
    ResolveAll b n s fs ↔ ∀ f ∈ fs, f.Resolves b n s := by
  induction fs with
  | nil => simp [ResolveAll]
  | cons f rest ih => rw [ResolveAll, ih, List.forall_mem_cons]

end Fragment

namespace Binder

variable {b : Binder} {n : Naming} {s : Scope}

mutual

lemma fragment_isOk (hfits : b.ClaimsFit n s) {f : Fragment} {e : Sql.Expr}
    (hf : f.Denotes n s.name e) : (b.expr [s] e).isOk = true ↔ f.Resolves b n s := by
  have hcovers : s.Covers [] := fun _ h => absurd h List.not_mem_nil
  match f with
  | .always | .never =>
    rw [Fragment.Denotes] at hf
    subst hf
    rw [expr, Fragment.Resolves]
    exact iff_of_true rfl trivial
  | .literalEq column value =>
    rw [Fragment.Denotes] at hf
    subst hf
    rw [Fragment.Resolves]
    exact literal_isOk hcovers
  | .principalEq column =>
    rw [Fragment.Denotes] at hf
    subst hf
    rw [Fragment.Resolves]
    exact caller_isOk hcovers
  | .inClaim column lookup =>
    rw [Fragment.Denotes] at hf
    obtain ⟨title, rfl⟩ := hf
    rw [expr, Fragment.Resolves]
    refine (isOk_bind fun x _ => ?_).trans (and_congr (column_isOk hcovers) (Iff.refl _))
    refine (isOk_map fun ⟨q, headings⟩ hquery => ?_).trans (related_isOk hfits)
    obtain ⟨⟨name, rfl⟩, -⟩ := related_eq_ok default default hfits hquery
    rfl
  | .all [] | .any [] =>
    rw [Fragment.Denotes] at hf
    obtain ⟨es, -, rfl⟩ := hf
    rw [List.isEmpty_nil, if_pos rfl, expr, Fragment.Resolves, Fragment.ResolveAll]
    exact iff_of_true rfl trivial
  | .all [f] | .any [f] =>
    rw [Fragment.Denotes] at hf
    obtain ⟨es, hes, rfl⟩ := hf
    -- A chain of one condition is that condition.
    obtain ⟨e, rfl, he⟩ := denotes_of_one hes
    simp only [Fragment.Resolves, Fragment.ResolveAll, and_true]
    exact fragment_isOk hfits he
  | .all (f :: g :: rest) | .any (f :: g :: rest) =>
    rw [Fragment.Denotes] at hf
    obtain ⟨es, hes, rfl⟩ := hf
    rw [List.isEmpty_cons, if_neg (by decide), chain_of_several hes, expr, Fragment.Resolves]
    exact (isOk_map fun _ _ => rfl).trans (fragments_isOk hfits hes)

lemma fragments_isOk (hfits : b.ClaimsFit n s) {fs : List Fragment} {es : List Sql.Expr}
    (hf : Fragment.DenoteAll n s.name fs es) :
    (b.exprs [s] es).isOk = true ↔ Fragment.ResolveAll b n s fs := by
  match fs with
  | [] =>
    rw [Fragment.DenoteAll] at hf
    subst hf
    rw [exprs, Fragment.ResolveAll]
    exact iff_of_true rfl trivial
  | f :: rest =>
    rw [Fragment.DenoteAll] at hf
    obtain ⟨e, more, he, hmore, rfl⟩ := hf
    rw [exprs, Fragment.ResolveAll]
    exact (isOk_bind fun x _ => isOk_map fun _ _ => rfl).trans
      (and_congr (fragment_isOk hfits he) (fragments_isOk hfits hmore))

end

end Binder

/-! ### Parameters -/

lemma Literal.params_toExpr (v : Literal) : v.toExpr.params = 0 := by
  cases v with
  | int i =>
    rw [toExpr]
    split <;> rfl
  | null | bool _ | real _ | text _ => rfl

lemma Sql.Expr.paramsAll_literals (vs : List Literal) :
    Expr.paramsAll (vs.map Literal.toExpr) = 0 := by
  induction vs with
  | nil => rfl
  | cons v vs ih => rw [List.map_cons, paramsAll, v.params_toExpr, ih, Nat.max_self]

lemma Lookup.params_toQuery (lookup : Lookup) (view title : String) :
    (lookup.toQuery view title).params = 0 := by
  have hfilter : (lookup.filterExpr view).params = 0 := by
    unfold filterExpr
    cases lookup.property with
    | none => rfl
    | some filter =>
      simp [Expr.params, Expr.paramsAll, Expr.paramsAll_literals, ownExpr]
  simp [toQuery, Query.params, Output.paramsAll, Output.params, Source.params, Expr.params, hfilter]

namespace Fragment

variable {n : Naming} {table : String}

mutual

lemma params_of_denotes {f : Fragment} {e : Sql.Expr} (h : f.Denotes n table e) :
    e.params = 0 := by
  match f with
  | .always | .never =>
    rw [Denotes] at h
    subst h
    rfl
  | .literalEq column value =>
    rw [Denotes] at h
    subst h
    cases value <;> simp [literalExpr, Expr.params, Literal.params_toExpr]
  | .principalEq column =>
    rw [Denotes] at h
    subst h
    rfl
  | .inClaim column lookup =>
    rw [Denotes] at h
    obtain ⟨title, rfl⟩ := h
    simp [Expr.params, Lookup.params_toQuery]
  | .all [] | .any [] =>
    rw [Denotes] at h
    obtain ⟨es, -, rfl⟩ := h
    rfl
  | .all [f] | .any [f] =>
    rw [Denotes] at h
    obtain ⟨es, hes, rfl⟩ := h
    obtain ⟨e, rfl, he⟩ := Binder.denotes_of_one hes
    exact params_of_denotes he
  | .all (f :: g :: rest) | .any (f :: g :: rest) =>
    rw [Denotes] at h
    obtain ⟨es, hes, rfl⟩ := h
    rw [List.isEmpty_cons, if_neg (by decide), Binder.chain_of_several hes, Expr.params]
    exact paramsAll_of_denoteAll hes

lemma paramsAll_of_denoteAll {fs : List Fragment} {es : List Sql.Expr}
    (h : DenoteAll n table fs es) : Sql.Expr.paramsAll es = 0 := by
  match fs with
  | [] =>
    rw [DenoteAll] at h
    subst h
    rfl
  | f :: rest =>
    rw [DenoteAll] at h
    obtain ⟨e, more, he, hmore, rfl⟩ := h
    rw [Sql.Expr.paramsAll, params_of_denotes he, paramsAll_of_denoteAll hmore]
    rfl

end

end Fragment

end RowPolicy
