import Mathlib.Data.List.Pairwise
import Mathlib.Data.List.Perm.Basic
import RowPolicy.Proofs.Database.Change
import RowPolicy.Store

/-!
# Tables of records

A table of the store holds records: the cells of its rows are those of the records, in some order.
Storing, replacing and deleting rows changes the records in the same way and no other table.
-/

namespace RowPolicy

/-! ### Cells -/

lemma Cell.same_text (a b : String) : (Cell.text a).same (.text b) = (a == b) := by
  have horder : (Cell.text a).order (.text b) =
      if a == b then .eq else if a < b then .lt else .gt := rfl
  rw [same, horder]
  split_ifs with hab hlt <;> simp [hab]

/-! ### Orders -/

namespace Text

variable {α κ : Type} {lt : κ → κ → Bool} {key : α → κ}

lemma perm_insertByKey (a : α) (l : List α) : (insertByKey lt key a l).Perm (a :: l) := by
  induction l with
  | nil => exact List.Perm.refl _
  | cons b l ih =>
    rw [insertByKey]
    split
    · exact List.Perm.refl _
    · exact (ih.cons b).trans (List.Perm.swap a b l)

lemma perm_sortByKey (l : List α) : (sortByKey lt key l).Perm l := by
  have hfold : ∀ sorted : List α,
      (l.foldl (fun sorted a => insertByKey lt key a sorted) sorted).Perm (sorted ++ l) := by
    induction l with
    | nil => intro sorted; simp
    | cons a l ih =>
      intro sorted
      refine (ih _).trans (((perm_insertByKey a sorted).append_right l).trans ?_)
      exact List.perm_middle.symm
  exact hfold []

lemma pairwise_sortByKey
    (htrans : ∀ a b c, lt (key a) (key b) = true → lt (key b) (key c) = true →
      lt (key a) (key c) = true)
    (hasymm : ∀ a b, lt (key a) (key b) = true → lt (key b) (key a) = false) (l : List α) :
    (sortByKey lt key l).Pairwise fun a b => lt (key b) (key a) = false := by
  -- Inserting into a sorted list keeps it sorted, and sorting is nothing else.
  have hinsert : ∀ (a : α) (l : List α), l.Pairwise (fun a b => lt (key b) (key a) = false) →
      (insertByKey lt key a l).Pairwise fun a b => lt (key b) (key a) = false := by
    intro a l hl
    induction l with
    | nil => exact List.pairwise_singleton _ _
    | cons b l ih =>
      obtain ⟨hb, hrest⟩ := List.pairwise_cons.mp hl
      rw [insertByKey]
      split
      case isTrue hab =>
        refine List.pairwise_cons.mpr ⟨fun c hc => ?_, hl⟩
        obtain rfl | hc := List.mem_cons.mp hc
        · exact hasymm a c hab
        · rw [← Bool.not_eq_true]
          intro hca
          exact absurd (htrans c a b hca hab) (Bool.eq_false_iff.mp (hb c hc))
      case isFalse hab =>
        refine List.pairwise_cons.mpr ⟨fun c hc => ?_, ih hrest⟩
        obtain rfl | hc := List.mem_cons.mp ((perm_insertByKey a l).mem_iff.mp hc)
        · exact Bool.eq_false_iff.mpr hab
        · exact hb c hc
  have hfold : ∀ sorted : List α, sorted.Pairwise (fun a b => lt (key b) (key a) = false) →
      (l.foldl (fun sorted a => insertByKey lt key a sorted) sorted).Pairwise
        fun a b => lt (key b) (key a) = false := by
    induction l with
    | nil => exact fun _ hsorted => hsorted
    | cons a l ih => exact fun sorted hsorted => ih _ (hinsert a sorted hsorted)
  exact hfold [] List.Pairwise.nil

end Text

lemma Table.perm_place (t : Table) (row : Row) : (t.place row).Perm (row :: t.rows) := by
  unfold place
  split
  · exact List.perm_append_singleton row t.rows
  · exact Text.perm_insertByKey row t.rows

/-- A change of a row without a given id replaces its cells. -/
lemma Table.update_eq_ok {t t' : Table} {old : Row} {changes : List (Nat × Cell)}
    (hid : t.rowIdIndex? = none) (h : t.update old changes none = .ok t') :
    t'.schema = t.schema ∧ (t'.rows.map Row.cells).Perm
      (t.changedCells old.cells changes :: (t.rows.erase old).map Row.cells) := by
  unfold update at h
  simp only [hid, pure_bind] at h
  obtain ⟨_, -, h⟩ := bind_eq_ok.mp h
  cases h
  exact ⟨rfl, (Table.perm_place { t with rows := t.rows.erase old } _).map Row.cells⟩

/-- A rearrangement of images is the image of a rearrangement. -/
lemma exists_map_of_perm {α β : Type} {f : α → β} {bs : List β} {as : List α}
    (h : bs.Perm (as.map f)) : ∃ as' : List α, as'.Perm as ∧ bs = as'.map f := by
  have himage : List.Forall₂ (fun b a => b = f a) (as.map f) as := by
    rw [List.forall₂_map_left_iff]
    exact List.forall₂_same.mpr fun _ _ => rfl
  obtain ⟨as', himage', hperm⟩ := List.perm_comp_forall₂ h himage
  refine ⟨as', hperm, ?_⟩
  rw [← List.forall₂_eq_eq_eq, List.forall₂_map_right_iff]
  exact himage'

/-! ### Tables by name -/

variable {name : String}

namespace Database

/-- The names of the tables are distinct up to case. -/
def HasDistinctTables (db : Database) : Prop :=
  db.tables.Pairwise fun t u => Text.sameName t.name u.name = false

instance (db : Database) : Decidable db.HasDistinctTables :=
  inferInstanceAs (Decidable (db.tables.Pairwise _))

variable {db db' : Database} {t t' : Table}

lemma HasDistinctTables.congr (h : db.HasDistinctTables)
    (hschema : db'.schema.tables = db.schema.tables) : db'.HasDistinctTables := by
  have hiff : ∀ db : Database, db.HasDistinctTables ↔
      db.schema.tables.Pairwise fun t u => Text.sameName t.name u.name = false := fun db => by
    unfold HasDistinctTables schema
    rw [List.pairwise_map]
    rfl
  rw [hiff, hschema, ← hiff]
  exact h

lemma HasDistinctTables.eq_of_sameName (h : db.HasDistinctTables) (ht : t ∈ db.tables)
    (ht' : t' ∈ db.tables) (hname : Text.sameName t.name t'.name = true) : t = t' := by
  by_contra hne
  have hsymm : Std.Symm fun t u : Table => Text.sameName t.name u.name = false :=
    ⟨fun t u htu => by
      unfold Text.sameName at htu ⊢
      rw [Bool.beq_comm, htu]⟩
  have hfalse := List.Pairwise.forall h ht ht' hne
  rw [hname] at hfalse
  cases hfalse

lemma name_of_schema (h : t'.schema = t.schema) : t'.name = t.name :=
  (congrArg Table.name h : t'.schema.name = t.schema.name)

lemma HasDistinctTables.schema_setTable (h : db.HasDistinctTables)
    (ht : db.table? t.name = some t) (hschema : t'.schema = t.schema) :
    (db.setTable t').schema = db.schema := by
  refine Database.schema_setTable fun u hu hname => ?_
  have hname' : u.name = t.name := hname.trans (name_of_schema hschema)
  have hsame : Text.sameName u.name t.name = true := by
    rw [hname']
    exact beq_self_eq_true _
  rw [h.eq_of_sameName hu (List.mem_of_find?_eq_some ht) hsame, hschema]

lemma table?_setTable_of_name (ht : db.table? name = some t) (hname : t.name = t'.name) :
    (db.setTable t').table? name = some t' := by
  rw [table?_setTable, ht, Option.map_some, if_pos (beq_iff_eq.mpr hname)]

lemma table?_setTable_of_ne (ht : db.table? name = some t) (hname : t.name ≠ t'.name) :
    (db.setTable t').table? name = some t := by
  rw [table?_setTable, ht, Option.map_some, if_neg fun h => hname (beq_iff_eq.mp h)]

end Database

namespace Store

/-! ### Records in rows -/

/-- The cells of records as a table keeps them. -/
structure RecordTable (α : Type) where
  table : Table
  cells : α → List Cell

/-- A database holds records in a table. -/
structure Holds {α : Type} (T : RecordTable α) (db : Database) (as : List α) : Prop where
  exists_table : ∃ t, db.table? T.table.name = some t ∧ t.schema = T.table ∧
    (t.rows.map Row.cells).Perm (as.map T.cells)

variable {rows : List Row} {u : Table}

section

variable {α : Type} {T : RecordTable α} {db db' : Database} {as as' : List α} {t : Table}

lemma Holds.perm (h : Holds T db as) (hperm : as.Perm as') : Holds T db as' := by
  obtain ⟨t, ht, hschema, hcells⟩ := h.exists_table
  exact ⟨t, ht, hschema, hcells.trans (hperm.map _)⟩

lemma Holds.exists_rows (h : Holds T db as) : ∃ (t : Table) (as' : List α),
    db.table? T.table.name = some t ∧ t.schema = T.table ∧
      t.rows.map Row.cells = as'.map T.cells ∧ as'.Perm as := by
  obtain ⟨t, ht, hschema, hcells⟩ := h.exists_table
  obtain ⟨as', hperm, hcells⟩ := exists_map_of_perm hcells
  exact ⟨t, as', ht, hschema, hcells, hperm⟩

lemma Holds.congr (h : Holds T db as)
    (htable : db'.table? T.table.name = db.table? T.table.name) : Holds T db' as := by
  obtain ⟨t, ht, hschema, hcells⟩ := h.exists_table
  exact ⟨t, htable.trans ht, hschema, hcells⟩

/-- Rows chosen by their cells are those of the records chosen in the same way. -/
lemma filter_cells {cells : α → List Cell} {p : Row → Bool} {q : α → Bool}
    (h : rows.map Row.cells = as.map cells)
    (hpq : ∀ row ∈ rows, ∀ a ∈ as, row.cells = cells a → p row = q a) :
    (rows.filter p).map Row.cells = (as.filter q).map cells := by
  induction rows generalizing as with
  | nil =>
    rw [List.map_nil, eq_comm, List.map_eq_nil_iff] at h
    rw [h]
    rfl
  | cons row rows ih =>
    obtain ⟨a, as, rfl, hrow, hrows⟩ := List.map_eq_cons_iff.mp h.symm
    have hrest := ih hrows.symm fun row' hrow' a' ha' =>
      hpq row' (List.mem_cons_of_mem _ hrow') a' (List.mem_cons_of_mem _ ha')
    have hhead := hpq row List.mem_cons_self a List.mem_cons_self hrow.symm
    rw [List.filter_cons, List.filter_cons, hhead]
    split
    · rw [List.map_cons, List.map_cons, hrest, hrow]
    · exact hrest

lemma exists_cells {cells : α → List Cell} (h : rows.map Row.cells = as.map cells) {row : Row}
    (hrow : row ∈ rows) :
    ∃ a ∈ as, row.cells = cells a := by
  have hmem : row.cells ∈ as.map cells := h ▸ List.mem_map.mpr ⟨row, hrow, rfl⟩
  obtain ⟨a, ha, hcells⟩ := List.mem_map.mp hmem
  exact ⟨a, ha, hcells.symm⟩

lemma table_eq_ok {columns : List String} (h : Store.table db u columns = .ok t) :
    db.table? u.name = some t := by
  unfold Store.table at h
  split at h
  next => cases h
  next t' ht' =>
    split at h
    · cases h
      exact ht'
    · cases h

lemma table_of_schema {columns : List String} (ht : db.table? u.name = some t)
    (hschema : t.schema = u) (hcolumns : columns.all (fun c => (u.columnIndex? c).isSome) = true) :
    Store.table db u columns = .ok t := by
  have hindex : ∀ c, t.columnIndex? c = u.columnIndex? c := fun c => by
    rw [← hschema]
    rfl
  unfold Store.table
  simp only [ht, hindex, hcolumns, if_true]

end

/-! ### Writing -/

section

variable {α : Type} {T : RecordTable α} {db db' : Database} {as : List α}
  {values : List (String × Cell)}

/-- What a write of the store leaves as it was: the other tables, the schema and the views. -/
structure Writes (name : String) (db db' : Database) : Prop where
  others : ∀ other t, db.table? other = some t → t.name ≠ name → db'.table? other = some t
  schema : db'.schema = db.schema

/-- Only rows of the store are written. -/
structure Spares (db db' : Database) : Prop where
  others : ∀ name t, db.table? name = some t → t.name ∉ tableNames → db'.table? name = some t
  schema : db'.schema = db.schema

lemma Writes.spares (h : Writes name db db') (hname : name ∈ tableNames) :
    Spares db db' where
  others other t ht hother := h.others other t ht fun heq => hother (heq ▸ hname)
  schema := h.schema

lemma writes_setTable {t t' : Table} (hdistinct : db.HasDistinctTables)
    (ht : db.table? t.name = some t) (hschema : t'.schema = t.schema) :
    Writes t.name db (db.setTable t') where
  others other u hu hne := by
    refine Database.table?_setTable_of_ne hu ?_
    rwa [Database.name_of_schema hschema]
  schema := hdistinct.schema_setTable ht hschema

lemma holds_setTable {t t' : Table} (ht : db.table? T.table.name = some t)
    (hschema : t.schema = T.table) (hschema' : t'.schema = t.schema)
    (hcells : (t'.rows.map Row.cells).Perm (as.map T.cells)) : Holds T (db.setTable t') as :=
  ⟨t', Database.table?_setTable_of_name ht (Database.name_of_schema hschema').symm,
    hschema'.trans hschema, hcells⟩

def hasKey (t : Table) (key : List (String × Cell)) (cells : List Cell) : Bool :=
  (placed t key).all fun (i, v) => (cells.getD i .null).same v

lemma upsert_eq_ok {t : Table} {key : List (String × Cell)} (ht : db.table? u.name = some t)
    (hid : t.rowIdIndex? = none) (h : upsert db u key values = .ok db') :
    ∃ t', db' = db.setTable t' ∧ t'.schema = t.schema ∧
      ((∃ row ∈ t.rows, hasKey t key row.cells = true ∧ (t'.rows.map Row.cells).Perm
          (t.changedCells row.cells (placed t values) :: (t.rows.erase row).map Row.cells)) ∨
        (∀ row ∈ t.rows, hasKey t key row.cells = false) ∧ (t'.rows.map Row.cells).Perm
          (t.newCells (placed t (key ++ values)) :: t.rows.map Row.cells)) := by
  unfold upsert at h
  obtain ⟨t₀, ht₀, h⟩ := bind_eq_ok.mp h
  obtain rfl : t = t₀ := Option.some.inj (ht.symm.trans (table_eq_ok ht₀))
  split at h
  next => cases h
  next =>
    dsimp only at h
    split at h
    next row hrow =>
      obtain ⟨t', hupdate, h⟩ := bind_eq_ok.mp h
      cases h
      obtain ⟨hschema, hcells⟩ := Table.update_eq_ok hid hupdate
      have hkey := List.find?_some (p := fun r : Row => hasKey t key r.cells) hrow
      exact ⟨t', rfl, hschema, .inl ⟨row, List.mem_of_find?_eq_some hrow, hkey, hcells⟩⟩
    next hnone =>
      obtain ⟨⟨t', id⟩, hinsert, h⟩ := bind_eq_ok.mp h
      cases h
      obtain ⟨-, rfl⟩ := Table.insert_eq_ok hinsert
      refine ⟨_, rfl, rfl, .inr ⟨fun row hrow => ?_, ?_⟩⟩
      · exact Bool.eq_false_iff.mpr (List.find?_eq_none.mp hnone row hrow)
      · refine ((Table.perm_place t _).map Row.cells).trans ?_
        rw [List.map_cons, Table.insertedCells, hid]

variable {κ : Type} [DecidableEq κ] {keyOf : α → κ}

lemma perm_filter_key {a : α} (hnodup : (as.map keyOf).Nodup) (ha : a ∈ as) :
    as.Perm (a :: as.filter fun b => keyOf b ≠ keyOf a) := by
  induction as with
  | nil => cases ha
  | cons b as ih =>
    rw [List.map_cons, List.nodup_cons] at hnodup
    obtain rfl | ha := List.mem_cons.mp ha
    · have hrest : as.filter (fun b => keyOf b ≠ keyOf a) = as :=
        List.filter_eq_self.mpr fun b hb => decide_eq_true fun heq =>
          hnodup.1 (heq ▸ List.mem_map.mpr ⟨b, hb, rfl⟩)
      rw [List.filter_cons_of_neg (by simp), hrest]
    · have hne : keyOf b ≠ keyOf a := fun heq =>
        hnodup.1 (heq ▸ List.mem_map.mpr ⟨a, ha, rfl⟩)
      rw [List.filter_cons_of_pos (by simpa using hne)]
      exact ((ih hnodup.2 ha).cons b).trans (List.Perm.swap _ _ _)

/-- What a table of records has to know about the key of a record that is stored. -/
structure Keys (T : RecordTable α) (keyOf : α → κ) (a : α) (key values : List (String × Cell)) :
    Prop where
  noRowId : T.table.rowIdIndex? = none
  hasKey : ∀ b, hasKey T.table key (T.cells b) = true ↔ keyOf b = keyOf a
  changed : ∀ b, keyOf b = keyOf a →
    T.table.changedCells (T.cells b) (placed T.table values) = T.cells a
  new : T.table.newCells (placed T.table (key ++ values)) = T.cells a

lemma Holds.upsert {a : α} {key : List (String × Cell)} (h : Holds T db as)
    (hdistinct : db.HasDistinctTables) (hkeys : Keys T keyOf a key values)
    (hnodup : (as.map keyOf).Nodup) (hupsert : Store.upsert db T.table key values = .ok db') :
    Holds T db' (a :: as.filter fun b => keyOf b ≠ keyOf a) ∧ Writes T.table.name db db' := by
  obtain ⟨t, as', ht, hschema, hrows, hperm⟩ := h.exists_rows
  obtain ⟨table, cells⟩ := T
  obtain rfl : t.schema = table := hschema
  dsimp only at ht hrows
  have hnodup' : (as'.map keyOf).Nodup := ((hperm.map keyOf).nodup_iff).mpr hnodup
  obtain ⟨t', rfl, hschema', hcells⟩ := upsert_eq_ok ht hkeys.noRowId hupsert
  refine ⟨?_, writes_setTable (t := t) hdistinct ht hschema'⟩
  refine Holds.perm (holds_setTable ht rfl hschema' ?_) ((hperm.filter _).cons a)
  rw [List.map_cons]
  obtain ⟨row, hrow, hhas, hcells⟩ | ⟨hnone, hcells⟩ := hcells
  · -- The row with the key is that of a record with the same key, and it is changed.
    obtain ⟨b, hb, hbcells⟩ := exists_cells hrows hrow
    have hhas' : hasKey t key (cells b) = true := hbcells ▸ hhas
    have hkey : keyOf b = keyOf a := (hkeys.hasKey b).mp hhas'
    have hrest : ((t.rows.erase row).map Row.cells).Perm
        ((as'.filter fun c => keyOf c ≠ keyOf a).map cells) := by
      refine List.Perm.cons_inv (a := row.cells) ?_
      have hleft := ((List.perm_cons_erase hrow).map Row.cells).symm
      have hright := (perm_filter_key hnodup' hb).map cells
      rw [List.map_cons, ← hbcells, hkey] at hright
      rw [List.map_cons] at hleft
      exact hleft.trans (hrows ▸ hright)
    refine hcells.trans ?_
    rw [hbcells,
      show t.changedCells (cells b) (placed t values) = cells a from hkeys.changed b hkey]
    exact hrest.cons _
  · -- No record has the key.
    have hrest : as'.filter (fun c => keyOf c ≠ keyOf a) = as' := by
      refine List.filter_eq_self.mpr fun c hc => decide_eq_true fun heq => ?_
      have hmem : cells c ∈ t.rows.map Row.cells := hrows ▸ List.mem_map.mpr ⟨c, hc, rfl⟩
      obtain ⟨row, hrow, hrowcells⟩ := List.mem_map.mp hmem
      have hhas : hasKey t key row.cells = true := by
        rw [hrowcells]
        exact (hkeys.hasKey c).mpr heq
      rw [hnone row hrow] at hhas
      cases hhas
    refine hcells.trans ?_
    rw [hrest, ← hrows, show t.newCells (placed t (key ++ values)) = cells a from hkeys.new]

lemma Holds.replace {a : α} (h : Holds T db as) (hdistinct : db.HasDistinctTables)
    (hid : T.table.rowIdIndex? = none)
    (hnew : T.table.newCells (placed T.table values) = T.cells a)
    (hclash : ∀ b, (T.table.uniqueSets.any fun set => Table.agree set (T.cells b) (T.cells a)) =
      decide (keyOf b = keyOf a)) (hreplace : Store.replace db T.table values = .ok db') :
    Holds T db' (a :: as.filter fun b => keyOf b ≠ keyOf a) ∧ Writes T.table.name db db' := by
  obtain ⟨t, as', ht, hschema, hrows, hperm⟩ := h.exists_rows
  obtain ⟨table, cells⟩ := T
  obtain rfl : t.schema = table := hschema
  dsimp only at ht hrows
  unfold Store.replace at hreplace
  obtain ⟨t₀, ht₀, hreplace⟩ := bind_eq_ok.mp hreplace
  obtain rfl : t = t₀ := Option.some.inj (ht.symm.trans (table_eq_ok ht₀))
  obtain ⟨⟨t', id⟩, hinsert, hreplace⟩ := bind_eq_ok.mp hreplace
  cases hreplace
  obtain ⟨-, rfl⟩ := Table.insert_eq_ok hinsert
  refine ⟨?_, writes_setTable (t := t) hdistinct ht rfl⟩
  have hcells : t.newCells (placed t values) = cells a := hnew
  -- The rows that give way are those with the same key.
  have hkept := filter_cells (q := fun b => keyOf b ≠ keyOf a) hrows (p := fun r =>
    !t.uniqueSets.any fun set => Table.agree set r.cells (t.newCells (placed t values)))
    fun row hrow b hb hbcells => by
      rw [hbcells, hcells, show (t.uniqueSets.any fun set => Table.agree set (cells b) (cells a)) =
        decide (keyOf b = keyOf a) from hclash b]
      simp
  have hinserted : ∀ rows, ({ t with rows := rows } : Table).insertedCells (placed t values) id =
      cells a := fun rows => by
    rw [Table.insertedCells, show ({ t with rows := rows } : Table).rowIdIndex? = none from hid]
    exact hcells
  refine Holds.perm (holds_setTable ht rfl rfl ?_) ((hperm.filter _).cons a)
  refine ((Table.perm_place _ _).map Row.cells).trans ?_
  rw [List.map_cons, List.map_cons, hkept, hinserted]

lemma Holds.delete {wanted : List (String × String)} {removed : Bool} {p : α → Bool}
    (h : Holds T db as) (hdistinct : db.HasDistinctTables)
    (hwanted : ∀ row b, row.cells = T.cells b → hasTexts T.table wanted row = p b)
    (hdelete : Store.deleteRows db T.table wanted = .ok (db', removed)) :
    Holds T db' (as.filter fun b => !p b) ∧ Writes T.table.name db db' := by
  obtain ⟨t, as', ht, hschema, hrows, hperm⟩ := h.exists_rows
  obtain ⟨table, cells⟩ := T
  obtain rfl : t.schema = table := hschema
  dsimp only at ht hrows
  unfold deleteRows at hdelete
  obtain ⟨t₀, ht₀, hdelete⟩ := bind_eq_ok.mp hdelete
  obtain rfl : t = t₀ := Option.some.inj (ht.symm.trans (table_eq_ok (mapError_eq_ok.mp ht₀)))
  cases hdelete
  have hkept := filter_cells (q := fun b => !p b) (p := fun r => !hasTexts t wanted r) hrows
    fun row _ b _ hbcells => by
      rw [show hasTexts t wanted row = p b from hwanted row b hbcells]
  exact ⟨Holds.perm (holds_setTable ht rfl rfl (hkept ▸ List.Perm.refl _)) (hperm.filter _),
    writes_setTable (t := t) hdistinct ht rfl⟩

end

/-! ### Reading -/

section

variable {α β : Type} {T : RecordTable α} {cells : α → List Cell} {text : α → String} {t : Table}
  {db : Database} {as as' : List α} {decode : Json.Draft → Json.Decoded β} {o : Option β}

lemma cell_of_schema (h : t.schema = u) (row : Row) (column : String) :
    cell t row column = cell u row column := by
  subst h
  rfl

lemma hasTexts_of_schema (h : t.schema = u) (wanted : List (String × String)) :
    hasTexts t wanted = hasTexts u wanted := by
  subst h
  rfl

/-- The records of rows are read from the texts of the records that they hold. -/
lemma readRecords_eq (htext : ∀ row a, row.cells = cells a → cell t row "record" = .text (text a))
    {as : List α} (hrows : rows.map Row.cells = as.map cells) :
    readRecords decode t rows = as.mapM fun a => readRecord decode (text a) := by
  have htexts : rows.mapM (recordText t) = .ok (as.map text) := by
    induction rows generalizing as with
    | nil =>
      rw [List.map_nil, eq_comm, List.map_eq_nil_iff] at hrows
      rw [hrows]
      rfl
    | cons row rows ih =>
      obtain ⟨a, as, rfl, hrow, hrest⟩ := List.map_eq_cons_iff.mp hrows.symm
      have hfirst : recordText t row = .ok (text a) := by
        rw [recordText, htext row a hrow.symm]
      rw [List.mapM_cons, hfirst, ih hrest.symm]
      rfl
  rw [readRecords, htexts, ok_bind, List.mapM_map]
  rfl

/-- The first of some records, read from its text. -/
def readHead (decode : Json.Draft → Json.Decoded β) (text : α → String) :
    List α → Stored (Option β)
  | [] => .ok none
  | a :: _ => (readRecord decode (text a)).map some

lemma readFirst_eq (htext : ∀ row a, row.cells = cells a → cell t row "record" = .text (text a))
    {as : List α} (hrows : rows.map Row.cells = as.map cells) :
    readFirst decode t rows = readHead decode text as := by
  cases rows with
  | nil =>
    rw [List.map_nil, eq_comm, List.map_eq_nil_iff] at hrows
    rw [hrows]
    rfl
  | cons row rows =>
    obtain ⟨a, as, rfl, hrow, hrest⟩ := List.map_eq_cons_iff.mp hrows.symm
    have hfirst : recordText t row = .ok (text a) := by
      rw [recordText, htext row a hrow.symm]
    rw [readFirst, hfirst, ok_bind, readHead]
    cases readRecord decode (text a) <;> rfl

/-- Rows that are chosen by their cells, in any order, are read as the records that are chosen. -/
lemma Holds.exists_read (h : Holds T db as) (u : Table) (hu : T.table = u)
    (decode : Json.Draft → Json.Decoded β) (columns : List String)
    (hcolumns : columns.all (fun c => (u.columnIndex? c).isSome) = true)
    (htext : ∀ row a, row.cells = T.cells a → cell u row "record" = .text (text a)) :
    ∃ t, ofStorage (Store.table db u columns) = .ok t ∧ t.schema = u ∧
      ∀ (p : Row → Bool) (q : α → Bool) (rows : List Row),
        (∀ row a, row.cells = T.cells a → p row = q a) → rows.Perm (t.rows.filter p) →
          ∃ as' : List α, as'.Perm (as.filter q) ∧
            readFirst decode t rows = readHead decode text as' ∧
            readRecords decode t rows = as'.mapM fun a => readRecord decode (text a) := by
  obtain ⟨t, as', ht, hschema, hrows, hperm⟩ := h.exists_rows
  rw [hu] at ht hschema
  refine ⟨t, mapError_eq_ok.mpr (table_of_schema ht hschema hcolumns), hschema,
    fun p q rows hpq hchosen => ?_⟩
  have htext' : ∀ row a, row.cells = T.cells a → cell t row "record" = .text (text a) :=
    fun row a hcells => (cell_of_schema hschema row "record").trans (htext row a hcells)
  have hcells := filter_cells (p := p) (q := q) hrows fun row _ a _ => hpq row a
  obtain ⟨as'', hperm', hrows'⟩ := exists_map_of_perm (hcells ▸ hchosen.map Row.cells)
  exact ⟨as'', hperm'.trans (hperm.filter q), readFirst_eq htext' hrows',
    readRecords_eq htext' hrows'⟩

/-- The first of the records that are chosen is read if there is one. -/
lemma readHead_eq_ok {q : α → Bool} (hperm : as'.Perm (as.filter q))
    (h : readHead decode text as' = .ok o) :
    (o = none ∧ ∀ a ∈ as, q a = false) ∨
      ∃ a ∈ as, q a = true ∧ ∃ b, readRecord decode (text a) = .ok b ∧ o = some b := by
  cases as' with
  | nil =>
    refine .inl ⟨(Except.ok.inj h).symm, fun a ha => Bool.eq_false_iff.mpr ?_⟩
    exact List.filter_eq_nil_iff.mp (List.nil_perm.mp hperm) a ha
  | cons a rest =>
    obtain ⟨b, hb, rfl⟩ := map_eq_ok.mp h
    obtain ⟨ha, hq⟩ := List.mem_filter.mp (hperm.mem_iff.mp List.mem_cons_self)
    exact .inr ⟨a, ha, hq, b, hb, rfl⟩

lemma readHead_of_unique {q : α → Bool} (hperm : as'.Perm (as.filter q)) {a : α} (ha : a ∈ as)
    (hq : q a = true) (hunique : ∀ b ∈ as, q b = true → b = a) :
    readHead decode text as' = (readRecord decode (text a)).map some := by
  cases as' with
  | nil =>
    have hmem := hperm.mem_iff.mpr (List.mem_filter.mpr ⟨ha, hq⟩)
    cases hmem
  | cons b rest =>
    obtain ⟨hb, hqb⟩ := List.mem_filter.mp (hperm.mem_iff.mp List.mem_cons_self)
    rw [readHead, hunique b hb hqb]

end

end Store

end RowPolicy
