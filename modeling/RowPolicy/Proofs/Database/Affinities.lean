import RowPolicy.Proofs.Database.Constraints

/-!
# Rows and the affinities of their columns

A column of a table holds values as its affinity keeps them. So does a column of a view or of a
query: its affinity is that of the column it shows, or text where a value is cast to text, and any
other expression has none. For such values it makes no difference whether they are compared with a
value or looked for among values.
-/

namespace RowPolicy

/-! ### Values that are kept -/

namespace Cell

variable {x y : Cell} {a : Affinity}

lemma isKept_none (x : Cell) : IsKept .none x := ⟨x, rfl⟩

lemma isKept_castText (x : Cell) : IsKept .text x.castText := by
  refine ⟨x.castText, ?_⟩
  change x.castText.numberToText = x.castText
  cases hx : x.castText with
  | int i => exact absurd hx castText_ne_int
  | real r => exact absurd hx castText_ne_real
  | null | text _ | blob _ => rfl

end Cell

lemma Binary64.value_of_toInt? {x : Binary64} {i : Int} (h : x.toInt? = some i) :
    x.value = (((i : ℚ) : WithTop ℚ) : WithBot (WithTop ℚ)) := by
  unfold toInt? at h
  dsimp only at h
  split at h
  · cases h
  next hfinite =>
    split at h
    next hmod =>
      obtain rfl := Option.some.inj h
      rw [value_of_isFinite (by simpa using hfinite), WithBot.coe_inj, WithTop.coe_inj,
        div_eq_iff x.signedRatio_pos.ne']
      exact_mod_cast (Int.ediv_mul_cancel (Int.dvd_of_emod_eq_zero (eq_of_beq hmod))).symm
    · cases h

namespace Cell

variable {x y : Cell} {a : Affinity}

lemma value_integral (x : Cell) : x.integral.value = x.value := by
  cases x with
  | real x =>
    rw [integral]
    split
    next i hi =>
      split
      · rw [value, value, Binary64.value_of_toInt? hi]
      · rfl
    · rfl
  | null | int _ | text _ | blob _ => rfl

/-- A value of a column is found among values if it equals one of them. -/
lemma IsKept.matches_iff (h : x.IsKept a) : Matches a x y ↔ Equals a x y := by
  refine and_congr_right fun hx => and_congr_right fun _ => ?_
  cases a with
  | none | blob => exact Iff.rfl
  | numeric | integer | real =>
    change (x.textToNumber.integral).same y.textToNumber.integral = true ↔ _
    rw [same_iff, value_integral, value_integral, ← same_iff]
    rfl
  | text =>
    have hkept := h.numberToText_eq
    change x.numberToText.same y.numberToText = true ↔ _
    unfold meet
    split
    next hnumeric => cases hnumeric
    next =>
      split
      next => exact Iff.rfl
      next hneither =>
        -- Neither side is a text, so the value is bytes, and no number is.
        simp only [beq_self_eq_true, Bool.true_and, Bool.or_eq_true, not_or] at hneither
        cases x with
        | null => exact absurd rfl hx
        | int _ | real _ => cases hkept
        | text _ => exact absurd rfl hneither.1
        | blob s =>
          cases y with
          | text _ => exact absurd rfl hneither.2
          | int _ | real _ =>
            rw [same_iff, same_iff]
            exact iff_of_false nofun nofun
          | null | blob _ => exact Iff.rfl

end Cell

/-! ### Rows of queries -/

/-- The columns can hold the values of a row. -/
def Binder.Hold (headings : List Heading) (row : List Cell) : Prop :=
  ∀ i heading, headings[i]? = some heading → (row.getD i .null).IsKept heading.2

/-- The columns of a scope can hold the values of a row, and so can its row id. -/
structure Scope.Holds (s : Scope) (frame : List Cell) : Prop where
  columns : Binder.Hold s.columns frame
  rowId : s.hasRowId = true → (frame.getD s.columns.length .null).IsKept .integer

/-- The rows behind every name are held by their columns. -/
def Binder.IsLawful (b : Binder) (db : Database) (env : Env) : Prop :=
  ∀ name, Yields (b.find name) fun (source, headings, hasRowId) =>
    ∀ row ∈ source.rows db env, (Scope.mk name headings hasRowId).Holds row

lemma Yields.of_any {ε α β : Type} {x : Except ε α} {f : α → Except ε β} {P : β → Prop}
    (h : ∀ a, Yields (f a) P) : Yields (x >>= f) P := by
  intro b hb
  obtain ⟨a, -, hb⟩ := bind_eq_ok.mp hb
  exact h a b hb

lemma mem_of_mem_distinctRows {rows : List (List Cell)} {row : List Cell}
    (h : row ∈ distinctRows rows) : row ∈ rows := by
  have hfold : ∀ {add : List (List Cell) → List Cell → List (List Cell)},
      (∀ kept r, add kept r = kept ∨ add kept r = kept ++ [r]) →
      ∀ kept, row ∈ rows.foldl add kept → row ∈ kept ∨ row ∈ rows := by
    clear h
    intro add hadd
    induction rows with
    | nil => exact fun kept h => .inl h
    | cons r rows ih =>
      intro kept h
      obtain h | h := ih _ h
      · obtain hkept | hadded := hadd kept r
        · exact .inl (hkept ▸ h)
        · simp only [hadded, List.mem_append, List.mem_singleton] at h
          exact h.imp_right fun h => List.mem_cons.mpr (.inl h)
      · exact .inr (List.mem_cons_of_mem r h)
  refine (hfold (fun kept r => ?_) [] h).resolve_left List.not_mem_nil
  dsimp only
  split
  · exact .inl rfl
  · exact .inr rfl

namespace Binder

variable {b : Binder} {db : Database} {env : Env} {s : Scope} {frame : List Cell}

lemma columnOf?_isKept (hs : s.Holds frame) {name : String} {i : Nat} {heading : Heading}
    (h : columnOf? s name = some (i, heading)) : (frame.getD i .null).IsKept heading.2 := by
  unfold columnOf? at h
  split at h
  next j _ =>
    obtain ⟨c, hc, heq⟩ := Option.map_eq_some_iff.mp h
    cases heq
    exact hs.columns _ _ hc
  next =>
    split at h
    next hid =>
      cases h
      exact hs.rowId (Bool.and_eq_true_iff.mp hid).1
    · cases h

lemma lookup?_isKept (hs : s.Holds frame) {row : Option String} {name : String}
    {found : BoundExpr × Heading} (h : lookup? row name 0 [s] = some found) :
    (found.1.eval db env [frame]).IsKept found.2.2 := by
  obtain ⟨c, hc, rfl⟩ : ∃ c, columnOf? s name = some c ∧ found = (.column 0 c.1, c.2) := by
    cases row <;> simp only [lookup?] at h <;> split at h <;> simp_all
  rw [BoundExpr.eval]
  exact columnOf?_isKept hs hc

lemma expr_isKept (hs : s.Holds frame) (e : Sql.Expr) :
    Yields (b.expr [s] e) fun (bound, a) => (bound.eval db env [frame]).IsKept a := by
  -- Only columns and casts have an affinity that a cell has to keep.
  cases e with
  | null | int _ | real _ | text _ | bytes _ | param _ =>
    rw [expr]
    exact .ok (Cell.isKept_none _)
  | column row name quoted =>
    rw [expr.eq_def]
    dsimp only
    split
    next bound heading hfound => exact .ok (lookup?_isKept hs hfound)
    next => exact .error _
    next =>
      intro found hfound
      obtain ⟨x, -, rfl⟩ := map_eq_ok.mp hfound
      exact Cell.isKept_none _
  | call name args =>
    rw [expr]
    split
    · exact .ok (Cell.isKept_none _)
    · exact .error _
  | cast e type =>
    rw [expr]
    refine .of_any fun x => ?_
    dsimp only
    split
    · refine .ok ?_
      dsimp only
      rw [BoundExpr.eval]
      exact Cell.isKept_castText _
    · exact .error _
  | not e =>
    rw [expr]
    exact .of_any fun _ => .ok (Cell.isKept_none _)
  | compare op l r | same negated l r | inList negated e items =>
    rw [expr]
    exact .of_any fun _ => .of_any fun _ => .ok (Cell.isKept_none _)
  | inQuery negated e q =>
    rw [expr]
    refine .of_any fun _ => .of_any fun found => ?_
    dsimp only
    split
    · exact .ok (Cell.isKept_none _)
    · exact .error _
  | and children | or children =>
    rw [expr]
    exact .of_any fun _ => .ok (Cell.isKept_none _)

lemma allColumns_isKept (hs : s.Holds frame) {o : Shown} (h : o ∈ allColumns s) :
    (o.expr.eval db env [frame]).IsKept o.heading.2 := by
  obtain ⟨⟨c, i⟩, hc, rfl⟩ := List.mem_map.mp h
  dsimp only
  rw [BoundExpr.eval]
  exact hs.columns i c (List.mem_zipIdx_iff_getElem?.mp hc)

lemma output_isKept (hs : s.Holds frame) (o : Sql.Output) :
    Yields (b.output [s] o) fun shown =>
      ∀ x ∈ shown, (x.expr.eval db env [frame]).IsKept x.heading.2 := by
  cases o with
  | all =>
    rw [output.eq_def]
    dsimp only
    split
    · exact .error _
    · exact .ok fun _ => allColumns_isKept hs
  | allOf row =>
    rw [output.eq_def]
    dsimp only
    split
    · exact .ok fun _ => allColumns_isKept hs
    · exact .error _
  | expr e name text =>
    rw [output]
    exact (expr_isKept hs e).bind fun x hx => .ok (by simpa using hx)

lemma outputs_isKept (hs : s.Holds frame) (os : List Sql.Output) :
    Yields (b.outputs [s] os) fun shown =>
      ∀ x ∈ shown, (x.expr.eval db env [frame]).IsKept x.heading.2 := by
  induction os with
  | nil =>
    rw [outputs]
    exact .ok (by simp)
  | cons o rest ih =>
    rw [outputs]
    exact (output_isKept hs o).bind fun _ ho => ih.bind fun _ hrest =>
      .ok (List.forall_mem_append.mpr ⟨ho, hrest⟩)

lemma hold_evalAll {frames : Frames} {shown : List Shown}
    (h : ∀ x ∈ shown, (x.expr.eval db env frames).IsKept x.heading.2) :
    Hold (shown.map Shown.heading) (BoundExpr.evalAll db env frames (shown.map Shown.expr)) := by
  induction shown with
  | nil => exact fun i heading hi => nomatch hi
  | cons x rest ih =>
    obtain ⟨hx, hrest⟩ := List.forall_mem_cons.mp h
    rw [List.map_cons, List.map_cons, BoundExpr.evalAll]
    intro i heading hi
    cases i with
    | zero =>
      cases hi
      exact hx
    | succ i => exact ih hrest i heading hi

lemma map_snd_distinctNames (taken : List String) (headings : List Heading) :
    (distinctNames taken headings).map Prod.snd = headings.map Prod.snd := by
  induction headings generalizing taken with
  | nil => rfl
  | cons h rest ih => rw [distinctNames, List.map_cons, List.map_cons, ih]

/-- Whether columns can hold a row does not depend on their names. -/
lemma Hold.distinctNames {headings : List Heading} {row : List Cell} (h : Hold headings row) :
    Hold (distinctNames [] headings) row := by
  intro i heading hi
  have hsnd := congrArg (·[i]?) (map_snd_distinctNames [] headings)
  simp only [List.getElem?_map, hi, Option.map_some] at hsnd
  obtain ⟨heading', hi', heq⟩ := Option.map_eq_some_iff.mp hsnd.symm
  rw [← heq]
  exact h i heading' hi'

mutual

lemma IsLawful.source (hb : b.IsLawful db env) (src : Sql.Source) :
    Yields (b.source src) fun (rows, s) => ∀ row ∈ rows.rows db env, s.Holds row := by
  match src with
  | .unit =>
    rw [Binder.source]
    exact .ok fun row _ => ⟨fun i heading hi => (nomatch hi), fun h => nomatch h⟩
  | .named name label =>
    rw [Binder.source]
    exact (hb name).bind fun ⟨rows, headings, hasRowId⟩ hrows =>
      .ok fun row hrow => ⟨(hrows row hrow).columns, (hrows row hrow).rowId⟩
  | .query q label =>
    rw [Binder.source]
    refine (hb.query q).bind fun ⟨bound, headings⟩ hrows => .ok fun row hrow => ?_
    rw [BoundSource.rows] at hrow
    exact ⟨(hrows row hrow).distinctNames, fun h => nomatch h⟩

/-- The rows of a query are held by its columns. -/
lemma IsLawful.query (hb : b.IsLawful db env) (q : Sql.Query) :
    Yields (b.query [] q) fun (bound, headings) =>
      ∀ row ∈ bound.rows db env [], Hold headings row := by
  match q with
  | .select distinct columns from' filter =>
    rw [Binder.query]
    refine (hb.source from').bind fun ⟨rows, scope⟩ hrows => ?_
    intro found hfound
    obtain ⟨shown, hshown, hfound⟩ := bind_eq_ok.mp hfound
    obtain ⟨⟨f, a⟩, -, hfound⟩ := bind_eq_ok.mp hfound
    cases hfound
    intro row hrow
    rw [BoundQuery.rows] at hrow
    have hmem : row ∈ ((rows.rows db env).filter fun row =>
        (BoundExpr.eval db env [row] f).truth == some true).map fun row =>
          BoundExpr.evalAll db env [row] (shown.map Shown.expr) := by
      split at hrow
      · exact mem_of_mem_distinctRows hrow
      · exact hrow
    obtain ⟨inner, hinner, rfl⟩ := List.mem_map.mp hmem
    have hs := hrows inner (List.mem_filter.mp hinner).1
    exact hold_evalAll (outputs_isKept hs columns shown hshown)
  | .values rows =>
    rw [Binder.query]
    refine .of_any fun bound => .ok fun row _ i heading hi => ?_
    obtain ⟨j, -, rfl⟩ := List.mem_map.mp (List.mem_of_getElem? hi)
    exact Cell.isKept_none _

end

end Binder

/-! ### Rows of databases -/

namespace Database

variable {db : Database} {env : Env}

lemma holds_table {t : Table} {name : String} (h : t.IsLawful) {row : Row} (hrow : row ∈ t.rows) :
    (Scope.mk name (tableHeadings t) (!t.withoutRowId)).Holds row.frame := by
  have hfits := h.fits row hrow
  refine ⟨fun i heading hi => ?_, fun _ => ?_⟩
  · change (t.columns.map fun c => (c.name, c.affinity))[i]? = some heading at hi
    rw [List.getElem?_map] at hi
    obtain ⟨c, hc, rfl⟩ := Option.map_eq_some_iff.mp hi
    have hlt : i < row.cells.length := hfits.width ▸ (List.getElem?_eq_some_iff.mp hc).1
    have hget : row.frame.getD i .null = row.cells[i] := by
      simp [Row.frame, List.getElem?_append_left hlt, hlt]
    rw [hget]
    exact hfits.kept i c _ hc (List.getElem?_eq_getElem hlt)
  · have hget : row.frame.getD (tableHeadings t).length .null = .int row.id := by
      rw [tableHeadings, List.length_map, ← hfits.width, Row.frame]
      simp
    rw [hget]
    exact Cell.isKept_int row.id

/-- The rows behind the names of a database with lawful tables are held by their columns. -/
lemma binder_isLawful (h : ∀ t ∈ db.tables, t.IsLawful) (hasPrincipal : Bool) (env : Env) :
    (db.binder hasPrincipal).IsLawful db env := by
  suffices hfuel : ∀ fuel, Binder.IsLawful ⟨db.sourceAt hasPrincipal fuel, hasPrincipal⟩ db env from
    hfuel db.views.length
  have htable : ∀ fuel name t, db.table? name = some t →
      Yields (db.sourceAt hasPrincipal fuel name) fun (source, headings, hasRowId) =>
        ∀ row ∈ source.rows db env, (Scope.mk name headings hasRowId).Holds row := by
    intro fuel name t ht found hfound
    rw [sourceAt_table ht] at hfound
    cases hfound
    intro row hrow
    rw [BoundSource.rows, tableRows, table?_congr (sameName_of_table? ht), ht] at hrow
    obtain ⟨r, hr, rfl⟩ := List.mem_map.mp hrow
    exact holds_table (h t (List.mem_of_find?_eq_some ht)) hr
  -- The induction is on the depth to which views are unfolded.
  intro fuel
  induction fuel with
  | zero =>
    intro name found hfound
    obtain ⟨t, ht⟩ | ⟨v, k, -, -, hk⟩ := sourceAt_cases hfound
    · exact htable 0 name t ht found hfound
    · cases hk
  | succ fuel ih =>
    intro name found hfound
    obtain ⟨t, ht⟩ | ⟨v, k, ht, hv, -⟩ := sourceAt_cases hfound
    · exact htable (fuel + 1) name t ht found hfound
    · change db.sourceAt hasPrincipal (fuel + 1) name = _ at hfound
      rw [sourceAt_view ht hv] at hfound
      obtain ⟨bound, hbound, rfl⟩ := map_eq_ok.mp hfound
      intro row hrow
      rw [BoundSource.rows] at hrow
      exact ⟨(ih.query v.query bound hbound row hrow).distinctNames, fun h => nomatch h⟩

end Database

end RowPolicy
