import RowPolicy.Proofs.Sql.Statements

/-!
# Statements that are not cut off

A null character cuts a statement off. The checks and the query of an accessor are written with the
names and literals of its conditions, so there is none in them if there is none in those.
-/

namespace RowPolicy

open Sql

namespace Sql

/-! ### Texts in pieces -/

@[simp] lemma noNull_nil : NoNull [] := by simp [NoNull]

@[simp] lemma noNull_cons {c : Char} {cs : List Char} :
    NoNull (c :: cs) ↔ c.toNat ≠ 0 ∧ NoNull cs := List.forall_mem_cons

@[simp] lemma noNull_append {cs ds : List Char} :
    NoNull (cs ++ ds) ↔ NoNull cs ∧ NoNull ds := List.forall_mem_append

lemma noNull_text_append {s t : String} :
    NoNull (s ++ t).toList ↔ NoNull s.toList ∧ NoNull t.toList := by
  rw [String.toList_append, noNull_append]

lemma noNull_intercalate {sep : String} {parts : List String} (hsep : NoNull sep.toList) :
    NoNull (String.intercalate sep parts).toList ↔ ∀ part ∈ parts, NoNull part.toList := by
  rw [String.toList_intercalate]
  induction parts with
  | nil => simp
  | cons part rest ih =>
    cases rest with
    | nil => simp
    | cons next rest =>
      rw [List.map_cons, List.map_cons] at *
      rw [List.intercalate_cons_cons, noNull_append, noNull_append, ih, List.forall_mem_cons,
        List.forall_mem_cons]
      simp [hsep]

@[simp] lemma noNull_columnOf {row column : String} :
    NoNull (columnOf row column).toList ↔ NoNull row.toList ∧ NoNull (quoteName column).toList := by
  simp [columnOf]

lemma noNull_parameter (i : Nat) : NoNull (parameter i).toList := by
  simp [parameter, Number.natText, noNull_of_isDigit (Number.digits_all i)]

end Sql

namespace Naming

variable {n : Naming} {row row' : String}

mutual

/-- Whether a null character is in a condition does not depend on the name of the row, if there is
none in it. -/
lemma noNull_fragment (hrow : NoNull row.toList) {f : Fragment}
    (h : NoNull (n.fragment row' f).toList) : NoNull (n.fragment row f).toList := by
  match f with
  | .always | .never => rwa [fragment] at h ⊢
  | .literalEq column value =>
    rw [fragment.eq_def] at h ⊢
    cases value <;> simp_all
  | .principalEq column =>
    rw [fragment] at h ⊢
    simp_all
  | .inClaim column lookup =>
    rw [fragment] at h ⊢
    simp_all
  | .all [] | .any [] => rwa [fragment] at h ⊢
  | .all (f :: rest) | .any (f :: rest) =>
    rw [fragment] at h ⊢
    simp only [List.isEmpty_cons, Bool.false_eq_true, if_false, noNull_text_append] at h ⊢
    rw [noNull_intercalate (by simp)] at h ⊢
    exact ⟨⟨h.1.1, noNull_fragments hrow h.1.2⟩, h.2⟩

lemma noNull_fragments (hrow : NoNull row.toList) {fs : List Fragment}
    (h : ∀ s ∈ n.fragments row' fs, NoNull s.toList) :
    ∀ s ∈ n.fragments row fs, NoNull s.toList := by
  match fs with
  | [] => simp [fragments]
  | f :: rest =>
    rw [fragments, List.forall_mem_cons] at h ⊢
    exact ⟨noNull_fragment hrow h.1, noNull_fragments hrow h.2⟩

end

lemma fragments_eq_map (n : Naming) (row : String) (fs : List Fragment) :
    n.fragments row fs = fs.map (n.fragment row) := by
  induction fs with
  | nil => rfl
  | cons f rest ih => rw [fragments, ih, List.map_cons]

lemma noNull_all {fs : List Fragment} :
    NoNull (n.fragment row (.all fs)).toList ↔ ∀ f ∈ fs, NoNull (n.fragment row f).toList := by
  rw [fragment, fragments_eq_map]
  cases fs with
  | nil => simp
  | cons f rest =>
    simp only [List.isEmpty_cons, Bool.false_eq_true, if_false, noNull_text_append]
    rw [noNull_intercalate (by simp), List.forall_mem_map]
    simp

/-! ### Statements of a read rule -/

variable {a : Accessor}

lemma noNull_check {c : Check} (h : NoNull (n.fragment row c.fragment).toList) :
    NoNull (quoteName c.column).toList ∧ NoNull (n.renderCheck c).sql.toList := by
  have hcandidate : NoNull candidateName.toList := noNull_iff.mpr (by decide)
  have hcolumn : NoNull (quoteName c.column).toList := by
    unfold Check.fragment at h
    cases hkind : c.kind with
    | principal =>
      simp only [hkind, fragment, noNull_text_append, noNull_columnOf] at h
      exact h.1.1.1.2.2
    | member lookup =>
      simp only [hkind, fragment, noNull_text_append, noNull_columnOf] at h
      exact h.1.1.1.2
  have hcondition := noNull_fragment hcandidate h
  refine ⟨hcolumn, ?_⟩
  simp [renderCheck, hcondition, hcolumn, hcandidate]

lemma noNull_accessorQuery
    (hprojection : NoNull (projection (quoteName a.table) a.projection).toList)
    (htable : NoNull (quoteName a.table).toList)
    (hparameters : ∀ c ∈ a.parameters, NoNull (quoteName c).toList)
    (hbaked : ∀ column value, .baked column value ∈ a.conditions →
      NoNull (n.fragment (quoteName a.table) (.literalEq column value)).toList) :
    NoNull (n.accessorQuery a).toList := by
  have hclauses : ∀ clause ∈ n.accessorClauses a, NoNull clause.toList := by
    intro clause hclause
    obtain hclause | hclause := List.mem_append.mp hclause
    · obtain ⟨⟨c, i⟩, hmem, rfl⟩ := List.mem_map.mp hclause
      simp [htable, hparameters c (List.fst_mem_of_mem_zipIdx hmem), noNull_parameter]
    · obtain ⟨condition, hmem, hsome⟩ := List.mem_filterMap.mp hclause
      cases condition with
      | check c => cases hsome
      | baked column value =>
        cases hsome
        exact hbaked column value hmem
  have hwhere : NoNull (if (n.accessorClauses a).isEmpty then "1"
      else String.intercalate " AND " (n.accessorClauses a)).toList := by
    split
    · simp
    · exact (noNull_intercalate (by simp)).mpr hclauses
  simp only [accessorQuery, noNull_text_append]
  simp [hprojection, htable, -List.isEmpty_iff, hwhere]

lemma noNull_readView {v : ReadView} (h : NoNull (n.readViewSql v).toList) :
    NoNull (projection (quoteName v.table) v.projection).toList ∧
      NoNull (quoteName v.table).toList ∧
      NoNull (n.fragment (quoteName v.table) v.filter).toList := by
  dsimp only [readViewSql] at h
  obtain ⟨hfrom, hfilter⟩ := noNull_text_append.mp h
  obtain ⟨hselect, hrow⟩ := noNull_text_append.mp (noNull_text_append.mp hfrom).1
  exact ⟨(noNull_text_append.mp (noNull_text_append.mp hselect).1).2, hrow, hfilter⟩

end Naming

end RowPolicy
