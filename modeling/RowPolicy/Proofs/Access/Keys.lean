import RowPolicy.Proofs.Access.Anonymity
import RowPolicy.Proofs.Database.Constraints

/-!
# Keys of rows

A declared key of one column belongs to one row of a lawful table at most, whatever the value is
converted to before it is compared; so does the row id, unless a column hides it. A row that is
changed has the given values in the given columns, as these store them, and all others as before.
-/

namespace RowPolicy

open Sql

lemma lookup_eq_none {α β : Type} [BEq α] [LawfulBEq α] {a : α} {l : List (α × β)} :
    l.lookup a = none ↔ a ∉ l.map Prod.fst := by
  rw [List.lookup_eq_none_iff]
  constructor
  · intro h hmem
    obtain ⟨p, hp, rfl⟩ := List.mem_map.mp hmem
    simpa using h p hp
  · intro h p hp
    rw [bne_iff_ne]
    rintro rfl
    exact h (List.mem_map_of_mem hp)

namespace Table

variable {t : Table} {key column : String} {row row' : Row} {i : Nat}

/-! ### Columns by their place -/

lemma cell_getElem (h : t.isWellFormed = true) (hi : i < t.columns.length)
    (hrow : row.cells.length = t.columns.length) :
    row.cells[i]? = some ((t.values row).cell t.columns[i].name) := by
  have hlt : i < row.cells.length := hrow ▸ hi
  simp only [values, Scope.values, Scope.cell, columnOf?_getElem h hi, Row.frame]
  rw [List.getD_eq_getElem?_getD, List.getElem?_append_left hlt, List.getElem?_eq_getElem hlt,
    Option.getD_some]

lemma affinity_getElem (h : t.isWellFormed = true) (hi : i < t.columns.length) (row : Row) :
    (t.values row).affinity t.columns[i].name = t.columns[i].affinity := by
  simp only [values, Scope.values, Scope.affinity, columnOf?_getElem h hi]

lemma columnIndex?_eq (h : t.isWellFormed = true) (hi : i < t.columns.length) :
    t.columnIndex? t.columns[i].name = some i := by
  refine List.findIdx?_eq_some_iff_getElem.mpr ⟨hi, Text.sameName_self _, fun j hj hname => ?_⟩
  exact absurd (eq_of_sameName h (hj.trans hi) hi hname) hj.ne

lemma hasColumn_getElem (hi : i < t.columns.length) :
    t.shape.hasColumn t.columns[i].name = true :=
  List.contains_iff_mem.mpr (List.mem_map_of_mem (List.getElem_mem hi))

lemma exists_of_hasColumn (h : t.shape.hasColumn column = true) :
    ∃ (i : Nat) (hi : i < t.columns.length), t.columns[i].name = column := by
  rw [TableShape.hasColumn, List.contains_iff_mem] at h
  obtain ⟨i, hi, hname⟩ := List.getElem_of_mem h
  have hi' : i < t.columns.length := by simpa [shape] using hi
  exact ⟨i, hi', by simpa [shape] using hname⟩

/-! ### Declared keys -/

lemma keyIndexes_of_column (h : t.shape.key = .column key) :
    ∃ (i : Nat) (hi : i < t.columns.length), t.keyIndexes = [i] ∧ t.columns[i].name = key := by
  have hkey : t.keyIndexes.map t.columnName = [key] := by
    simp only [shape] at h
    split at h
    next => cases h
    next c hc =>
      cases h
      exact hc
    next => cases h
  obtain ⟨i, hindexes, hname⟩ := List.map_eq_singleton_iff.mp hkey
  have hmem : i ∈ t.keyIndexes := hindexes ▸ List.mem_singleton_self i
  obtain ⟨name, -, hfound⟩ := List.mem_filterMap.mp hmem
  have hi : i < t.columns.length := (List.findIdx?_eq_some_iff_getElem.mp hfound).1
  refine ⟨i, hi, hindexes, ?_⟩
  simpa [columnName, hi] using hname

/-- Rows of a lawful table that agree on a declared key of one column are one row. -/
lemma IsLawful.eq_of_same (h : t.IsLawful) (hrow : row ∈ t.rows) (hrow' : row' ∈ t.rows)
    (hindexes : t.keyIndexes = [i]) {x y : Cell} (hx : row.cells[i]? = some x)
    (hy : row'.cells[i]? = some y) (hx0 : x ≠ .null) (hy0 : y ≠ .null) (hsame : x.same y = true) :
    row = row' := by
  by_contra hne
  have hapart := h.apart_of_ne hrow hrow' hne
  cases hindex : t.rowIdIndex? with
  | some j =>
    -- The key is the row id.
    have hij : i = j := by
      simp only [rowIdIndex?, hindexes] at hindex
      split at hindex
      · exact Option.some.inj hindex
      · cases hindex
    subst hij
    have hid := (h.fits row hrow).rowId i hindex
    have hid' := (h.fits row' hrow').rowId i hindex
    cases hx.symm.trans hid
    cases hy.symm.trans hid'
    refine hapart.ids ?_
    simpa [Cell.same_iff, Cell.value] using hsame
  | none =>
    have hkey : t.key ≠ [] := by
      intro hkey
      simp [keyIndexes, hkey] at hindexes
    have hmem : [i] ∈ t.uniqueSets := by
      simp [uniqueSets, hindex, hkey, hindexes]
    have hagree := hapart.values [i] hmem
    simp [agree, hx, hy, hsame, Cell.isNull_iff, hx0, hy0, Bool.eq_false_iff] at hagree

lemma IsLawful.tellsApart (h : t.IsLawful) (hw : t.isWellFormed = true)
    (hkey : t.shape.key = .column key) : t.TellsApart key := by
  intro x row hrow row' hrow' hhas hhas'
  obtain ⟨i, hi, hindexes, rfl⟩ := keyIndexes_of_column hkey
  have hequals := Cell.compareWith_eq_true.mp hhas
  have hequals' := Cell.compareWith_eq_true.mp hhas'
  rw [affinity_getElem hw hi] at hequals hequals'
  have hcell := cell_getElem hw hi (h.isFull row hrow)
  have hcell' := cell_getElem hw hi (h.isFull row' hrow')
  have hcolumn : t.columns[i]? = some t.columns[i] := List.getElem?_eq_getElem hi
  refine h.eq_of_same hrow hrow' hindexes hcell hcell' hequals.1 hequals'.1 ?_
  exact ((h.fits row hrow).kept i _ _ hcolumn hcell).same_of_equals
    ((h.fits row' hrow').kept i _ _ hcolumn hcell') hequals hequals'

/-! ### Row ids -/

lemma keyIndexes_of_rowId (h : t.shape.key = .rowId) : t.keyIndexes = [] := by
  simp only [shape] at h
  split at h
  next hnil => exact List.map_eq_nil_iff.mp hnil
  next => cases h
  next => cases h

lemma withoutRowId_of_rowId (h : t.isWellFormed = true) (hkey : t.shape.key = .rowId) :
    t.withoutRowId = false := by
  unfold isWellFormed at h
  simp only [Bool.and_eq_true, Bool.not_eq_true', Bool.and_eq_false_iff, List.all_eq_true] at h
  obtain ⟨⟨-, hfound⟩, hids⟩ := h
  refine hids.resolve_right fun hkeyed => ?_
  obtain ⟨name, hname⟩ := List.exists_mem_of_ne_nil t.key (by simpa using hkeyed)
  obtain ⟨i, hi⟩ := Option.isSome_iff_exists.mp (hfound name hname)
  have hmem : i ∈ t.keyIndexes := List.mem_filterMap.mpr ⟨name, hname, hi⟩
  rw [keyIndexes_of_rowId hkey] at hmem
  cases hmem

lemma has_keyName (h : t.isWellFormed = true) (hkey : t.shape.keyName? = some key) :
    (t.scope t.name).Has key := by
  unfold TableShape.keyName? at hkey
  split at hkey
  next name hname =>
    cases hkey
    obtain ⟨i, hi, -, rfl⟩ := keyIndexes_of_column hname
    exact has_of_hasColumn h (hasColumn_getElem hi) t.name
  next hid =>
    cases hkey
    have hname : Binder.isRowIdName "rowid" = true := by decide
    have hscope : (t.scope t.name).hasRowId = true := by
      simp [scope, Database.writeScope, withoutRowId_of_rowId h hid]
    unfold Scope.Has Binder.columnOf?
    split
    next i hi =>
      obtain ⟨hlt, -⟩ := List.findIdx?_eq_some_iff_getElem.mp hi
      exact ⟨_, by rw [List.getElem?_eq_getElem hlt]; rfl⟩
    next => exact ⟨_, if_pos (by rw [hscope, hname]; rfl)⟩
  next => cases hkey

/-- Without a declared key no column is the row id, so none may have its name. -/
lemma NamesRowId.columnIndex?_eq_none (h : t.NamesRowId) (hkey : t.shape.key = .rowId) :
    t.columnIndex? "rowid" = none := by
  have hindexes := keyIndexes_of_rowId hkey
  cases hindex : t.columnIndex? "rowid" with
  | none => rfl
  | some i =>
    have hrowId := (h i hindex).1
    rw [rowIdIndex?, hindexes] at hrowId
    cases hrowId

/-- Where the name of the row id means the row id, a row has its own id as key. -/
lemma NamesRowId.hasKey_iff (h : t.NamesRowId) (hkey : t.shape.key = .rowId) {x : Cell}
    (hrow : row.cells.length = t.columns.length) :
    t.HasKey "rowid" x row ↔ t.withoutRowId = false ∧ Cell.Equals .integer (.int row.id) x := by
  have hindex : (t.scope t.name).columns.findIdx? (fun c => Text.sameName c.1 "rowid") = none :=
    List.findIdx?_map.trans (h.columnIndex?_eq_none hkey)
  have hname : Binder.isRowIdName "rowid" = true := by decide
  rw [HasKey, Cell.compareWith_eq_true]
  simp only [values, Scope.values, Scope.cell, Scope.affinity, Binder.columnOf?, hindex, hname]
  cases hwithout : t.withoutRowId with
  | true => simp [scope, Database.writeScope, hwithout, Cell.Equals]
  | false =>
    simp [scope, Database.writeScope, Database.tableHeadings, hwithout, Row.frame, ← hrow]

/-- The row id of a table without a declared key belongs to one row at most, if no column hides
it. -/
lemma IsLawful.tellsApart_rowid (h : t.IsLawful) (hnames : t.NamesRowId)
    (hkey : t.shape.key = .rowId) : t.TellsApart "rowid" := by
  intro x row hrow row' hrow' hhas hhas'
  obtain ⟨-, hequals⟩ := (hnames.hasKey_iff hkey (h.isFull row hrow)).mp hhas
  obtain ⟨-, hequals'⟩ := (hnames.hasKey_iff hkey (h.isFull row' hrow')).mp hhas'
  have hsame := (Cell.isKept_int row.id).same_of_equals (Cell.isKept_int row'.id) hequals hequals'
  by_contra hne
  refine (h.apart_of_ne hrow hrow' hne).ids ?_
  simpa [Cell.same_iff, Cell.value] using hsame

/-! ### Rows that are changed -/

def assignments (t : Table) (changes : List (String × Cell)) : List (Nat × Cell) :=
  changes.filterMap fun c => (t.columnIndex? c.1).map fun i => (i, c.2)

/-- A row has the given values in the given columns, as these store them, and otherwise those of
another row. -/
def Replaces (t : Table) (row row' : Row) (changes : List (String × Cell)) : Prop :=
  ∀ column, t.shape.hasColumn column = true → (t.values row').cell column =
    match changes.lookup column with
    | some x => x.store ((t.values row).affinity column)
    | none => (t.values row).cell column

/-- A changed cell has its last new value. -/
lemma getElem?_changedCells {changes : List (Nat × Cell)} (hnodup : (changes.map Prod.fst).Nodup)
    {c : Column} (hc : t.columns[i]? = some c) {cells : List Cell} (hi : i < cells.length) :
    (t.changedCells cells changes)[i]? =
      match changes.lookup i with
      | some x => some (x.store c.affinity)
      | none => cells[i]? := by
  induction changes generalizing cells with
  | nil => rfl
  | cons change changes ih =>
    obtain ⟨j, x⟩ := change
    rw [List.map_cons, List.nodup_cons] at hnodup
    have hstep : (t.changedCells (cells.set j (x.store
        ((t.columns[j]?.map Column.affinity).getD .none))) changes)[i]? = _ :=
      ih hnodup.2 (by simpa using hi)
    change (t.changedCells (cells.set j (x.store
      ((t.columns[j]?.map Column.affinity).getD .none))) changes)[i]? = _
    rw [hstep]
    by_cases hij : i = j
    · subst hij
      rw [lookup_eq_none.mpr hnodup.1, List.lookup_cons_self, hc]
      exact List.getElem?_set_self hi
    · have hne : (i == j) = false := beq_eq_false_iff_ne.mpr hij
      rw [List.lookup_cons, hne, List.getElem?_set_ne (Ne.symm hij)]

section

variable {changes : List (String × Cell)}

lemma assignments_cons (h : t.isWellFormed = true) (hi : i < t.columns.length) (x : Cell) :
    t.assignments ((t.columns[i].name, x) :: changes) = (i, x) :: t.assignments changes := by
  simp [assignments, columnIndex?_eq h hi]

lemma lookup_assignments (h : t.isWellFormed = true)
    (hknown : ∀ c ∈ changes, t.shape.hasColumn c.1 = true) (hi : i < t.columns.length) :
    (t.assignments changes).lookup i = changes.lookup t.columns[i].name := by
  induction changes with
  | nil => rfl
  | cons change changes ih =>
    obtain ⟨hchange, hrest⟩ := List.forall_mem_cons.mp hknown
    obtain ⟨name, x⟩ := change
    obtain ⟨j, hj, rfl⟩ := exists_of_hasColumn hchange
    have hname : (i == j) = (t.columns[i].name == t.columns[j].name) := by
      rw [Bool.eq_iff_iff, beq_iff_eq, beq_iff_eq]
      refine ⟨fun hij => by subst hij; rfl, fun hname => eq_of_sameName h hi hj ?_⟩
      rw [hname, Text.sameName_self]
    rw [assignments_cons h hj, List.lookup_cons, List.lookup_cons, hname, ih hrest]

lemma nodup_assignments (h : t.isWellFormed = true)
    (hknown : ∀ c ∈ changes, t.shape.hasColumn c.1 = true)
    (hnodup : (changes.map Prod.fst).Nodup) : ((t.assignments changes).map Prod.fst).Nodup := by
  induction changes with
  | nil => exact .nil
  | cons change changes ih =>
    obtain ⟨hchange, hrest⟩ := List.forall_mem_cons.mp hknown
    obtain ⟨name, x⟩ := change
    obtain ⟨j, hj, rfl⟩ := exists_of_hasColumn hchange
    obtain ⟨hnew, hnodup⟩ := List.nodup_cons.mp hnodup
    rw [assignments_cons h hj, List.map_cons, List.nodup_cons]
    refine ⟨?_, ih hrest hnodup⟩
    rw [← lookup_eq_none, lookup_assignments h hrest hj]
    exact lookup_eq_none.mpr hnew

/-- The changed row has the new values. -/
lemma replaces_changedRow {rowId : Int} (h : t.isWellFormed = true) (hfits : t.Fits row)
    (hknown : ∀ c ∈ changes, t.shape.hasColumn c.1 = true) (hnodup : (changes.map Prod.fst).Nodup)
    (hid : t.changedId row (t.assignments changes) none = .ok rowId) :
    t.Replaces row (t.changedRow row (t.assignments changes) rowId) changes := by
  intro column hcolumn
  obtain ⟨i, hi, rfl⟩ := exists_of_hasColumn hcolumn
  have hlength : (t.changedCells row.cells (t.assignments changes)).length = t.columns.length :=
    (length_changedCells t _ _).trans hfits.width
  have hcell := cell_getElem h hi hfits.width
  have hcell' : (t.changedRow row (t.assignments changes) rowId).cells[i]? = _ :=
    cell_getElem h hi ((length_withId t _ _).trans hlength)
  have hc : t.columns[i]? = some t.columns[i] := List.getElem?_eq_getElem hi
  have hchanged := getElem?_changedCells (nodup_assignments h hknown hnodup) hc
    (show i < row.cells.length from hfits.width ▸ hi)
  rw [lookup_assignments h hknown hi] at hchanged
  rw [affinity_getElem h hi]
  apply Option.some.inj
  rw [← hcell', changedRow]
  by_cases hindex : t.rowIdIndex? = some i
  · -- The cell is the row id, which was given anew or is the old one.
    obtain ⟨c, hc', haffinity⟩ := exists_rowIdColumn hindex
    cases hc.symm.trans hc'
    rw [getElem?_withId hindex hlength, haffinity]
    rw [changedId, hindex, Option.elim_some, lookup_assignments h hknown hi] at hid
    cases hlookup : changes.lookup t.columns[i].name with
    | none =>
      rw [hlookup] at hid
      cases hid
      rw [← hcell, hfits.rowId i hindex]
    | some x =>
      rw [hlookup] at hid
      change rowIdOf x = .ok rowId at hid
      unfold rowIdOf at hid
      split at hid
      next hconvert =>
        cases hid
        exact congrArg some hconvert.symm
      next => cases hid
  · -- Storing the row id does not touch the other cells.
    have hother : (t.withId (t.changedCells row.cells (t.assignments changes)) rowId)[i]? =
        (t.changedCells row.cells (t.assignments changes))[i]? := by
      unfold withId
      split
      next j hj =>
        refine List.getElem?_set_ne ?_
        rintro rfl
        exact hindex hj
      next => rfl
    rw [hother, hchanged]
    split
    · rfl
    · exact hcell

/-- The id of a changed row is that of every row with the changes that fits, if it is in a column;
otherwise it stays. -/
lemma changedId_of_replaces (h : t.isWellFormed = true) (hfits : t.Fits row)
    (hknown : ∀ c ∈ changes, t.shape.hasColumn c.1 = true) (hfits' : t.Fits row')
    (hreplaces : t.Replaces row row' changes) :
    ∃ rowId, t.changedId row (t.assignments changes) none = .ok rowId ∧
      (rowId = row'.id ∨ rowId = row.id ∧ t.rowIdIndex? = none) := by
  cases hindex : t.rowIdIndex? with
  | none =>
    refine ⟨row.id, ?_, .inr ⟨rfl, rfl⟩⟩
    rw [changedId, hindex]
    rfl
  | some i =>
    obtain ⟨c, hc, haffinity⟩ := exists_rowIdColumn hindex
    obtain ⟨hi, rfl⟩ := List.getElem?_eq_some_iff.mp hc
    have hcell := (hfits.rowId i hindex).symm.trans (cell_getElem h hi hfits.width)
    have hcell' := (hfits'.rowId i hindex).symm.trans (cell_getElem h hi hfits'.width)
    refine ⟨row'.id, ?_, .inl rfl⟩
    rw [hreplaces _ (hasColumn_getElem hi), affinity_getElem h hi, haffinity] at hcell'
    rw [changedId, hindex, Option.elim_some, lookup_assignments h hknown hi]
    cases hlookup : changes.lookup t.columns[i].name with
    | none =>
      rw [hlookup, ← Option.some.inj hcell] at hcell'
      rw [Cell.int.inj (Option.some.inj hcell')]
      rfl
    | some x =>
      rw [hlookup] at hcell'
      change rowIdOf x = .ok row'.id
      rw [rowIdOf, show x.convert .integer = .int row'.id from (Option.some.inj hcell').symm]

/-- A row can take the place of another one: it fits and stands apart from the rest. -/
def Admits (t : Table) (row row' : Row) : Prop :=
  t.Fits row' ∧ ∀ other ∈ t.rows, other ≠ row → t.Apart other row'

/-- A row has taken the place of another one. Its id is the same, unless a column has it. -/
structure Exchanged (t t' : Table) (row row' : Row) : Prop where
  schema : t'.schema = t.schema
  rows : t'.rows.Perm (row' :: t.rows.erase row)
  id : t.rowIdIndex? = none → row'.id = row.id

/-- An update exchanges the row for one with the changes. -/
lemma IsLawful.exchanged (h : t.IsLawful) (hw : t.isWellFormed = true) (hrow : row ∈ t.rows)
    (hknown : ∀ c ∈ changes, t.shape.hasColumn c.1 = true) (hnodup : (changes.map Prod.fst).Nodup)
    {t' : Table} (hupdate : t.update row (t.assignments changes) none = .ok t') :
    ∃ row', t.Exchanged t' row row' ∧ t.Replaces row row' changes ∧ t'.IsLawful := by
  have hlawful := h.update hrow (fun _ => rfl) hupdate
  obtain ⟨rowId, hid, -, rfl⟩ := update_iff.mp hupdate
  refine ⟨_, ⟨rfl, perm_place _ _, fun hindex => ?_⟩,
    replaces_changedRow hw (h.fits row hrow) hknown hnodup hid, hlawful⟩
  rw [changedId, hindex] at hid
  cases hid
  rfl

/-- An update is done if some row with the changes can take the place of the row. -/
lemma IsLawful.update_isOk (h : t.IsLawful) (hw : t.isWellFormed = true) (hrow : row ∈ t.rows)
    (hknown : ∀ c ∈ changes, t.shape.hasColumn c.1 = true) (hnodup : (changes.map Prod.fst).Nodup)
    (hreplaces : t.Replaces row row' changes) (hadmits : t.Admits row row') :
    ∃ t', t.update row (t.assignments changes) none = .ok t' := by
  have hfits := h.fits row hrow
  obtain ⟨hfits', hapart⟩ := hadmits
  obtain ⟨rowId, hid, hsame⟩ := changedId_of_replaces hw hfits hknown hfits' hreplaces
  have hreplaced := replaces_changedRow hw hfits hknown hnodup hid
  have hwidth : (t.changedRow row (t.assignments changes) rowId).cells.length = t.columns.length :=
    (length_withId t _ _).trans ((length_changedCells t _ _).trans hfits.width)
  have hcells : (t.changedRow row (t.assignments changes) rowId).cells = row'.cells := by
    refine List.ext_getElem? fun i => ?_
    by_cases hi : i < t.columns.length
    · rw [cell_getElem hw hi hwidth, cell_getElem hw hi hfits'.width,
        hreplaced _ (hasColumn_getElem hi), hreplaces _ (hasColumn_getElem hi)]
    · rw [List.getElem?_eq_none (by omega), List.getElem?_eq_none (by have := hfits'.width; omega)]
  have hothers : ∀ other ∈ t.rows.erase row, t.Apart other row' ∧ t.Apart other row := by
    intro other hother
    obtain ⟨hne, hmem⟩ := h.nodup.mem_erase_iff.mp hother
    exact ⟨hapart other hmem hne, h.apart_of_ne hmem hrow hne⟩
  refine ⟨_, update_iff.mpr ⟨rowId, hid, checkRow_iff.mpr ⟨hcells ▸ hfits'.filled,
    fun _ other hother => ?_, fun other hother is his => ?_⟩, rfl⟩⟩
  · obtain rfl | ⟨rfl, -⟩ := hsame
    · exact (hothers other hother).1.ids
    · exact (hothers other hother).2.ids
  · rw [hcells]
    exact (hothers other hother).1.values is his

end

end Table

end RowPolicy
