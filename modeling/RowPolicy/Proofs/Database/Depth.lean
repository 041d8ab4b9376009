import RowPolicy.Database.Statement
import RowPolicy.Proofs.Outcome
import RowPolicy.Proofs.Sql.Statements

/-!
# Depth

A statement can be prepared only if its expressions are not too deep. The check of a value never is,
whatever it looks up; a statement with all the conditions of a rule may be.
-/

namespace RowPolicy

open Sql Naming

/-- A text whose statement, if it has one, is not too deep to be prepared. -/
def Sql.isShallow (sql : String) : Bool :=
  match parse sql with
  | .one st _ => st.depth ≤ maxDepth
  | _ => true

lemma Sql.isShallow_iff {sql : String} {st : Statement} {rest : List Lexeme}
    (h : parse sql = .one st rest) : isShallow sql = true ↔ st.depth ≤ maxDepth := by
  rw [isShallow, h]
  exact decide_eq_true_iff

/-- A text that may be prepared: no null character cuts it off, and it is not too deep. -/
structure Sql.IsProper (sql : String) : Prop where
  whole : NoNull sql.toList
  shallow : isShallow sql

lemma Sql.nested_allRows (name : String) : (allRows name).extent.nested ≤ maxDepth := by
  change 1 ≤ maxDepth
  decide

namespace Database

variable {db : Database} {hasPrincipal : Bool} {sql : String} {p : Prepared}
  {P : Statement → Prop}

lemma prepareStatement_eq_ok {st : Statement} :
    db.prepareStatement hasPrincipal sql st = .ok p ↔
      st.depth ≤ maxDepth ∧ ∃ bound, db.bindStatement hasPrincipal sql st = .ok bound ∧
        p = ⟨bound, st.params, match st with | .query _ => true | _ => false⟩ := by
  rw [prepareStatement.eq_def]
  split
  case isTrue hdepth =>
    refine ⟨fun h => ?_, fun ⟨_, bound, hbound, hp⟩ => ?_⟩
    · obtain ⟨bound, hbound, hp⟩ := bind_eq_ok.mp h
      cases hp
      exact ⟨hdepth, bound, hbound, rfl⟩
    · rw [hbound, ok_bind, hp]
      rfl
  case isFalse hdepth => exact ⟨nofun, fun h => absurd h.1 hdepth⟩

lemma prepare_of_deep (h : isShallow sql = false) :
    db.prepare hasPrincipal sql = .error .invalid := by
  unfold isShallow at h
  split at h
  next st _ hparse =>
    rw [prepare, hparse]
    exact if_neg (of_decide_eq_false h)
  next => cases h

lemma prepare_startsAs (hsql : StartsAs sql P) (h : db.prepare hasPrincipal sql = .ok p) :
    ∃ st rest bound, P st ∧ parse sql = .one st rest ∧ isShallow sql ∧
      db.bindStatement hasPrincipal sql st = .ok bound ∧ p.statement = bound := by
  rw [prepare] at h
  obtain ⟨st, rest, hparse, hst⟩ | herror := hsql
  · rw [hparse] at h
    obtain ⟨hdepth, bound, hbound, rfl⟩ := prepareStatement_eq_ok.mp h
    exact ⟨st, rest, bound, hst, hparse, (isShallow_iff hparse).mpr hdepth, hbound, rfl⟩
  · rw [herror] at h
    cases h

lemma prepare_parsesAs (hsql : ParsesAs sql P) (h : db.prepare hasPrincipal sql = .ok p) :
    ∃ st bound, P st ∧ IsProper sql ∧ db.bindStatement hasPrincipal sql st = .ok bound ∧
      p.statement = bound := by
  have hstarts : StartsAs sql fun st => P st ∧ NoNull sql.toList :=
    Or.imp (fun ⟨hnull, st, hparse, hst⟩ => ⟨st, [], hparse, hst, hnull⟩) And.right hsql
  obtain ⟨st, _, bound, ⟨hst, hnull⟩, -, hshallow, hbound, hp⟩ := prepare_startsAs hstarts h
  exact ⟨st, bound, hst, ⟨hnull, hshallow⟩, hbound, hp⟩

end Database

/-! ### Checks -/

lemma Literal.height_toExpr (v : Literal) :
    v.toExpr.extent.height ≤ 2 ∧ v.toExpr.extent.nested = 0 := by
  cases v with
  | null | text => exact ⟨Nat.le_succ 1, rfl⟩
  | bool b => cases b <;> exact ⟨Nat.le_succ 1, rfl⟩
  | int i =>
    rw [toExpr]
    split <;> rw [Expr.extent] <;> exact ⟨by dsimp only; split <;> decide, rfl⟩
  | real x =>
    rw [toExpr, Expr.extent]
    exact ⟨by dsimp only; split <;> decide, rfl⟩

/-- The values that a property may have are no deeper than a sign makes them. -/
lemma Literal.extents_toExpr (vs : List Literal) :
    ((Expr.extents (vs.map toExpr)).map Extent.height).foldr max 0 ≤ 2 ∧
      ((Expr.extents (vs.map toExpr)).map Extent.nested).foldr max 0 = 0 := by
  induction vs with
  | nil => exact ⟨Nat.zero_le 2, rfl⟩
  | cons v rest ih =>
    simp only [List.map_cons, Expr.extents, List.foldr_cons]
    rw [v.height_toExpr.2, ih.2]
    exact ⟨max_le v.height_toExpr.1 ih.1, rfl⟩

/-- However many values a lookup allows, its query is not deep. -/
lemma Lookup.extent_toQuery (lookup : Lookup) (view title : String) :
    (lookup.toQuery view title).extent.height ≤ 5 ∧
      (lookup.toQuery view title).extent.nested ≤ 5 := by
  have hfilter : (lookup.filterExpr view).extent.height ≤ 5 ∧
      (lookup.filterExpr view).extent.nested = 0 := by
    unfold filterExpr
    split
    · exact ⟨Nat.le_succ 4, rfl⟩
    next filter _ =>
      obtain ⟨hheight, hnested⟩ := Literal.extents_toExpr filter.allowed
      simp [Expr.extent, Expr.extents, ownExpr, Extent.chain, Extent.above, Extent.negated,
        hnested, hheight]
  simp [toQuery, Query.extent, Output.extents, Source.depth, Extent.query, Extent.depth,
    Expr.extent, hfilter]

/-- The query of a check is never too deep. -/
lemma Check.nested_of_denotes {c : Check} {n : Naming} {row : String} {e : Sql.Expr}
    (h : c.fragment.Denotes n row e) (title inner : String) :
    (Query.select false [.expr e none title] (.query (candidateQuery c.column inner) (some row))
      (.int 1)).extent.nested ≤ maxDepth := by
  have hdepth : e.extent.depth ≤ 11 := by
    unfold fragment at h
    split at h
    · rw [Fragment.Denotes] at h
      subst h
      exact Nat.le_add_right 4 7
    next lookup _ =>
      rw [Fragment.Denotes] at h
      obtain ⟨title, rfl⟩ := h
      obtain ⟨hheight, hnested⟩ := lookup.extent_toQuery (n.claimView lookup.claim) title
      simp only [Expr.extent, Extent.negated, Extent.above, Extent.depth, Bool.false_eq_true,
        if_false, List.map_cons, List.map_nil, List.foldr_cons, List.foldr_nil,
        Option.isSome_some, if_true]
      omega
  have hcandidate : (candidateQuery c.column inner).extent.nested = 1 := rfl
  simp only [Query.extent, Output.extents, Source.depth, Extent.query, hcandidate, List.map_cons,
    List.map_nil, List.foldr_cons, List.foldr_nil, maxDepth]
  have hone : (Expr.int 1).extent.depth = 1 := rfl
  omega

end RowPolicy
