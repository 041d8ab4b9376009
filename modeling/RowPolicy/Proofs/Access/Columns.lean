import RowPolicy.Proofs.Access.Selection
import RowPolicy.Proofs.Consistency
import RowPolicy.Schema

/-!
# Columns of tables and rules

A rule that compiles names columns of its table exactly, each at most once. So its projection shows
the columns as they are named and in that order, and its condition can be bound as soon as the
claims that it looks up can.
-/

namespace RowPolicy

open Sql Naming

/-! ### Records with distinct names -/

namespace Json.Fields

lemma put_of_absent {key : String} {value : Json} {fields : Json.Fields}
    (h : key ∉ fields.map Prod.fst) : fields.put key value = fields ++ [(key, value)] := by
  induction fields with
  | nil => rfl
  | cons field rest ih =>
    rw [List.map_cons, List.mem_cons, not_or] at h
    rw [put, if_neg (by simpa using Ne.symm h.1), ih h.2, List.cons_append]

lemma merge_of_nodup {fields : Json.Fields} (h : (fields.map Prod.fst).Nodup) :
    merge fields = fields := by
  have hfold : ∀ (rest merged : Json.Fields), ((merged ++ rest).map Prod.fst).Nodup →
      rest.foldl (fun merged field => merged.put field.1 field.2) merged = merged ++ rest := by
    intro rest
    induction rest with
    | nil => intro merged _; simp
    | cons field rest ih =>
      intro merged hnodup
      have habsent : field.1 ∉ merged.map Prod.fst := by
        intro hmem
        rw [List.map_append, List.map_cons] at hnodup
        exact (List.nodup_append.mp hnodup).2.2 _ hmem _ List.mem_cons_self rfl
      rw [List.foldl_cons, put_of_absent habsent, ih]
      · simp
      · simpa using hnodup
  rw [merge, hfold fields [] h, List.nil_append]

end Json.Fields

/-! ### Columns of a table -/

namespace Table

variable {t : Table} {column : String}

lemma pairwise_of_areDistinct {names : List String} (h : areDistinct names = true) :
    names.Pairwise fun a b => Text.sameName a b = false := by
  induction names with
  | nil => exact .nil
  | cons name rest ih =>
    rw [areDistinct, Bool.and_eq_true, Bool.not_eq_true', List.any_eq_false] at h
    refine List.pairwise_cons.mpr ⟨fun other hother => ?_, ih h.2⟩
    simpa using h.1 other hother

lemma pairwise_columns (h : t.isWellFormed = true) :
    t.columns.Pairwise fun c d => Text.sameName c.name d.name = false := by
  unfold isWellFormed at h
  rw [Bool.and_eq_true, Bool.and_eq_true] at h
  exact List.pairwise_map.mp (pairwise_of_areDistinct h.1.1)

/-- Columns at two places have different names, also up to case. -/
lemma eq_of_sameName (h : t.isWellFormed = true) {i j : Nat} (hi : i < t.columns.length)
    (hj : j < t.columns.length)
    (hname : Text.sameName t.columns[i].name t.columns[j].name = true) : i = j := by
  have hpairwise := List.pairwise_iff_getElem.mp (pairwise_columns h)
  rcases Nat.lt_trichotomy i j with hlt | heq | hgt
  · exact absurd hname (by simp [hpairwise i j hi hj hlt])
  · exact heq
  · have hfalse := hpairwise j i hj hi hgt
    rw [Text.sameName, Bool.beq_comm] at hfalse
    exact absurd hname (by simp [Text.sameName, hfalse])

lemma columnOf?_getElem (h : t.isWellFormed = true) {i : Nat} (hi : i < t.columns.length) :
    Binder.columnOf? (t.scope t.name) t.columns[i].name =
      some (i, t.columns[i].name, t.columns[i].affinity) := by
  have hindex : (t.scope t.name).columns.findIdx?
      (fun c => Text.sameName c.1 t.columns[i].name) = some i := by
    have hlength : (t.scope t.name).columns.length = t.columns.length := by
      simp [scope, Database.writeScope, Database.tableHeadings]
    refine List.findIdx?_eq_some_iff_getElem.mpr ⟨hlength ▸ hi, ?_, fun j hj => ?_⟩
    · simp [scope, Database.writeScope, Database.tableHeadings, Text.sameName_self]
    · intro hname
      simp only [scope, Database.writeScope, Database.tableHeadings, List.getElem_map] at hname
      exact absurd (eq_of_sameName h (Nat.lt_trans hj hi) hi hname) (Nat.ne_of_lt hj)
  rw [Binder.columnOf?, hindex]
  simp [scope, Database.writeScope, Database.tableHeadings, hi]

lemma columnOf?_of_hasColumn (h : t.isWellFormed = true) (hc : t.shape.hasColumn column = true) :
    ∃ i a, i < t.columns.length ∧
      Binder.columnOf? (t.scope t.name) column = some (i, column, a) := by
  rw [TableShape.hasColumn, List.contains_iff_mem] at hc
  obtain ⟨i, hi, rfl⟩ := List.getElem_of_mem hc
  have hi' : i < t.columns.length := by simpa [shape] using hi
  refine ⟨i, t.columns[i].affinity, hi', ?_⟩
  simpa [shape] using columnOf?_getElem h hi'

lemma has_of_hasColumn (h : t.isWellFormed = true) (hc : t.shape.hasColumn column = true)
    (name : String) : (t.scope name).Has column := by
  obtain ⟨i, a, -, hfound⟩ := columnOf?_of_hasColumn h hc
  exact ⟨_, hfound⟩

/-! ### Projections -/

def shownColumns (t : Table) (projection : List String) : List String :=
  if projection.isEmpty then t.columns.map Column.name else projection

/-- A row as a projection shows it: its columns in order, each with the value of the row. -/
def shownRow (t : Table) (projection : List String) (r : Row) : Json.Fields :=
  (t.shownColumns projection).map fun c => (c, ((t.values r).cell c).toJson)

/-- The columns of a projection are columns of the table, each named once. -/
structure CanShow (t : Table) (projection : List String) : Prop where
  wellFormed : t.isWellFormed = true
  columns : t.columns ≠ []
  mem : ∀ c ∈ projection, t.shape.hasColumn c = true
  nodup : projection.Nodup

namespace CanShow

variable {projection : List String}

lemma mem_shownColumns (h : t.CanShow projection) :
    ∀ c ∈ t.shownColumns projection, t.shape.hasColumn c = true := by
  intro c hc
  unfold shownColumns at hc
  split at hc
  next => exact List.contains_iff_mem.mpr hc
  next => exact h.mem c hc

lemma eq_of_hasColumn (h : t.CanShow projection) {c d : String}
    (hc : t.shape.hasColumn c = true) (hd : t.shape.hasColumn d = true)
    (hname : Text.sameName c d = true) : c = d := by
  rw [TableShape.hasColumn, List.contains_iff_mem] at hc hd
  obtain ⟨i, hi, rfl⟩ := List.getElem_of_mem hc
  obtain ⟨j, hj, rfl⟩ := List.getElem_of_mem hd
  have hi' : i < t.columns.length := by simpa [shape] using hi
  have hj' : j < t.columns.length := by simpa [shape] using hj
  have heq : i = j := eq_of_sameName h.wellFormed hi' hj' (by simpa [shape] using hname)
  subst heq
  rfl

lemma nodup_shownColumns (h : t.CanShow projection) : (t.shownColumns projection).Nodup := by
  unfold shownColumns
  split
  next =>
    refine List.pairwise_map.mpr ((pairwise_columns h.wellFormed).imp fun hname heq => ?_)
    rw [heq, Text.sameName_self] at hname
    cases hname
  next => exact h.nodup

/-- What is shown are the columns as they are named, in order. -/
lemma exists_shown (h : t.CanShow projection) :
    ∃ shown, (t.scope t.name).project? projection = some shown ∧
      shown.map (fun c => c.2.1) = t.shownColumns projection ∧
      ∀ c ∈ shown, Binder.columnOf? (t.scope t.name) c.2.1 = some c := by
  unfold Scope.project? shownColumns
  cases hempty : projection.isEmpty with
  | true =>
    -- All columns are shown, and each is the first one with its name.
    have hcolumns : (t.scope t.name).columns.isEmpty = false := by
      simpa [scope, Database.writeScope, Database.tableHeadings] using h.columns
    rw [if_pos rfl, if_pos rfl, hcolumns]
    refine ⟨_, rfl, ?_, fun c hc => ?_⟩
    · refine List.ext_getElem ?_ fun i _ _ => ?_ <;>
        simp [scope, Database.writeScope, Database.tableHeadings]
    · obtain ⟨⟨heading, i⟩, hmem, rfl⟩ := List.mem_map.mp hc
      obtain ⟨hi, hget⟩ := List.getElem?_eq_some_iff.mp (List.mk_mem_zipIdx_iff_getElem?.mp hmem)
      have hi' : i < t.columns.length := by
        simpa [scope, Database.writeScope, Database.tableHeadings] using hi
      subst hget
      simpa [scope, Database.writeScope, Database.tableHeadings]
        using columnOf?_getElem h.wellFormed hi'
  | false =>
    have hmapM : ∀ columns : List String, (∀ c ∈ columns, t.shape.hasColumn c = true) →
        ∃ shown, columns.mapM (Binder.columnOf? (t.scope t.name)) = some shown ∧
          shown.map (fun c => c.2.1) = columns ∧
          ∀ c ∈ shown, Binder.columnOf? (t.scope t.name) c.2.1 = some c := by
      intro columns hmem
      induction columns with
      | nil => exact ⟨[], rfl, rfl, by simp⟩
      | cons c rest ih =>
        rw [List.forall_mem_cons] at hmem
        obtain ⟨shown, hshown, hnames, hfound⟩ := ih hmem.2
        obtain ⟨i, a, -, hc⟩ := columnOf?_of_hasColumn h.wellFormed hmem.1
        refine ⟨(i, c, a) :: shown, ?_, ?_, List.forall_mem_cons.mpr ⟨hc, hfound⟩⟩
        · rw [List.mapM_cons, hc, hshown]
          rfl
        · rw [List.map_cons, hnames]
    simpa using hmapM projection h.mem

lemma project?_isSome (h : t.CanShow projection) :
    ∃ shown, (t.scope t.name).project? projection = some shown := by
  obtain ⟨shown, hshown, -⟩ := h.exists_shown
  exact ⟨shown, hshown⟩

lemma showsDistinct (h : t.CanShow projection) : t.ShowsDistinct projection := by
  obtain ⟨shown, hshown, hnames, -⟩ := h.exists_shown
  have hdistinct : (t.shownColumns projection).Pairwise fun c d => Text.sameName d c = false := by
    refine h.nodup_shownColumns.imp_of_mem fun {c d} hc hd hne => ?_
    refine Bool.eq_false_iff.mpr fun hsame => hne ?_
    exact (h.eq_of_hasColumn (h.mem_shownColumns d hd) (h.mem_shownColumns c hc) hsame).symm
  unfold ShowsDistinct
  rw [hshown, Option.getD_some, List.pairwise_map]
  rwa [← hnames, List.pairwise_map] at hdistinct

lemma record_eq_shownRow (h : t.CanShow projection) (r : Row) :
    t.record projection r = t.shownRow projection r := by
  obtain ⟨shown, hshown, hnames, hfound⟩ := h.exists_shown
  have hfields : shown.map (fun c => (c.2.1, (r.frame.getD c.1 .null).toJson)) =
      t.shownRow projection r := by
    rw [shownRow, ← hnames, List.map_map]
    refine List.map_congr_left fun c hc => ?_
    simp only [Function.comp, values, Scope.values, Scope.cell, hfound c hc]
  rw [record, hshown, Option.getD_some, hfields]
  refine Json.Fields.merge_of_nodup ?_
  rw [shownRow, List.map_map]
  exact (List.map_id _).symm ▸ h.nodup_shownColumns

end CanShow

end Table

/-! ### Rules that were checked -/

lemma Rule.nodup_of_validateProjection {table : String} {seen columns : List String}
    (h : validateProjection table seen columns = .ok ()) :
    columns.Nodup ∧ ∀ c ∈ columns, c ∉ seen := by
  induction columns generalizing seen with
  | nil => simp
  | cons c rest ih =>
    rw [validateProjection] at h
    obtain ⟨_, -, h⟩ := bind_eq_ok.mp h
    split at h
    next => cases h
    next hseen =>
      obtain ⟨hnodup, hrest⟩ := ih h
      have hc : c ∉ seen := by simpa using hseen
      refine ⟨List.nodup_cons.mpr ⟨fun hmem => hrest c hmem List.mem_cons_self, hnodup⟩, ?_⟩
      refine List.forall_mem_cons.mpr ⟨hc, fun d hd hmem => ?_⟩
      exact hrest d hd (List.mem_cons_of_mem c hmem)

lemma Rule.validate_eq_ok {r : Rule} (h : r.validate = .ok ()) :
    r.projection.Nodup ∧ ∀ p, r.predicate = some p → p.validate = .ok () := by
  rw [validate] at h
  obtain ⟨_, -, h⟩ := bind_eq_ok.mp h
  dsimp only at h
  split at h
  next => cases h
  next =>
    obtain ⟨_, hprojection, h⟩ := bind_eq_ok.mp h
    refine ⟨(nodup_of_validateProjection hprojection).1, fun p hp => ?_⟩
    rwa [hp] at h

namespace Catalog

/-- What holds of a list of conditions joined by a connective exactly if it holds of all of them. -/
lemma collapse_iff {P : Fragment → Prop} {wrap : List Fragment → Fragment} {fs : List Fragment}
    (hwrap : ∀ fs, P (wrap fs) ↔ ∀ f ∈ fs, P f) : P (collapse wrap fs) ↔ ∀ f ∈ fs, P f := by
  rcases fs with _ | ⟨f, _ | ⟨g, rest⟩⟩
  · exact hwrap []
  · simp [collapse]
  · exact hwrap (f :: g :: rest)

end Catalog

namespace Predicate

mutual

/-- The literals of a predicate that was checked are finite. -/
lemma lowered_isFinite {p : Predicate} (h : p.validate = .ok ()) : p.lowered.IsFinite := by
  match p with
  | .literalEq column value =>
    rw [validate] at h
    obtain ⟨_, -, h⟩ := bind_eq_ok.mp h
    split at h
    next hfinite => exact hfinite
    next => cases h
  | .identityEq column => trivial
  | .membership column claim => exact fun filter hfilter => nomatch hfilter
  | .propertyCheck column claim property allowed =>
    rw [validate] at h
    obtain ⟨_, -, h⟩ := bind_eq_ok.mp h
    obtain ⟨_, -, h⟩ := bind_eq_ok.mp h
    obtain ⟨_, -, h⟩ := bind_eq_ok.mp h
    dsimp only at h
    split at h
    next => cases h
    next =>
      split at h
      next hfinite =>
        intro filter hfilter
        cases hfilter
        exact List.all_eq_true.mp hfinite
      next => cases h
  | .and children | .or children =>
    rw [validate] at h
    rw [lowered]
    refine (Catalog.collapse_iff fun _ => Fragment.areFinite_iff).mpr ?_
    exact loweredAll_isFinite (ite_error_eq_ok.mp h).2

lemma loweredAll_isFinite {ps : List Predicate} (h : validateAll ps = .ok ()) :
    ∀ f ∈ loweredAll ps, f.IsFinite := by
  match ps with
  | [] => simp [loweredAll]
  | p :: rest =>
    rw [validateAll] at h
    obtain ⟨_, hp, hrest⟩ := bind_eq_ok.mp h
    rw [loweredAll]
    exact List.forall_mem_cons.mpr ⟨lowered_isFinite hp, loweredAll_isFinite hrest⟩

end

/-! ### Lookups -/

section

variable {c : Catalog} {t : Table} {b : Binder} {n : Naming} {name : String}

mutual

/-- A predicate that compiles over a table can be bound exactly if its lookups can. -/
lemma lowered_resolves {p : Predicate} (hw : t.isWellFormed = true) (hb : b.hasPrincipal = true)
    (h : p.Resolves c t.shape) :
    p.lowered.Resolves b n (t.scope name) ↔ ∀ l ∈ p.lookups, b.Knows n l := by
  match p with
  | .literalEq column value =>
    simpa [lowered, lookups, Fragment.Resolves] using t.has_of_hasColumn hw h name
  | .identityEq column =>
    simpa [lowered, lookups, Fragment.Resolves, hb] using t.has_of_hasColumn hw h name
  | .membership column claim | .propertyCheck column claim property allowed =>
    simp [lowered, lookups, Fragment.Resolves, t.has_of_hasColumn hw h.1 name]
  | .and children | .or children =>
    rw [lowered, lookups]
    refine (Catalog.collapse_iff (P := Fragment.Resolves b n (t.scope name)) fun fs => ?_).trans
      (loweredAll_resolves hw hb h)
    exact Fragment.resolveAll_iff

lemma loweredAll_resolves {ps : List Predicate} (hw : t.isWellFormed = true)
    (hb : b.hasPrincipal = true) (h : ResolveAll c t.shape ps) :
    (∀ f ∈ loweredAll ps, f.Resolves b n (t.scope name)) ↔
      ∀ l ∈ lookupsOfAll ps, b.Knows n l := by
  match ps with
  | [] => simp [loweredAll, lookupsOfAll]
  | p :: rest =>
    rw [loweredAll, lookupsOfAll, List.forall_mem_cons, List.forall_mem_append,
      lowered_resolves hw hb h.1, loweredAll_resolves hw hb h.2]

end

end

end Predicate

namespace Rule

variable {r : Rule} {c : Catalog} {t : Table} {b : Binder} {n : Naming} {absent : Fragment}

lemma filter_isFinite (h : r.validate = .ok ()) (habsent : absent.IsFinite) :
    (r.filter absent).IsFinite := by
  unfold filter
  cases hp : r.predicate with
  | none => exact habsent
  | some p => exact Predicate.lowered_isFinite ((validate_eq_ok h).2 p hp)

/-- The condition of a rule that compiles can be bound exactly if the claims that it looks up
can. -/
lemma filter_resolves_of (hw : t.isWellFormed = true) (hb : b.hasPrincipal = true)
    (h : r.Resolves c t.shape) {name : String} (habsent : absent.Resolves b n (t.scope name)) :
    (r.filter absent).Resolves b n (t.scope name) ↔ ∀ l ∈ r.lookups, b.Knows n l := by
  unfold filter lookups
  cases hp : r.predicate with
  | none => exact iff_of_true habsent nofun
  | some p => exact Predicate.lowered_resolves hw hb (h.2 p hp)

lemma filter_resolves (hw : t.isWellFormed = true) (hb : b.hasPrincipal = true)
    (h : r.Resolves c t.shape) {name : String} :
    (r.filter .always).Resolves b n (t.scope name) ↔ ∀ l ∈ r.lookups, b.Knows n l :=
  filter_resolves_of hw hb h trivial

lemma canShow (h : r.validate = .ok ()) (hresolves : r.Resolves c t.shape)
    (hw : t.isWellFormed = true) (hcolumns : t.columns ≠ []) : t.CanShow r.projection :=
  ⟨hw, hcolumns, hresolves.1, (validate_eq_ok h).1⟩

end Rule

end RowPolicy
