import RowPolicy.Proofs.Database.Binding

/-!
# Changes of rows

Storing rows changes no names, so what is bound stays as it is, and a query that reads none of the
changed tables yields what it did before. A row that is inserted is full, and its id is new.
-/

namespace RowPolicy

/-! ### Schemas -/

def Table.schema (t : Table) : Table := { t with rows := [] }

/-- Every row of a table has a cell for each of its columns. -/
def Table.IsFull (t : Table) : Prop := ∀ r ∈ t.rows, r.cells.length = t.columns.length

instance (t : Table) : Decidable t.IsFull := inferInstanceAs (Decidable (∀ r ∈ t.rows, _))

namespace Database

def schema (db : Database) : Database := { db with tables := db.tables.map Table.schema }

variable {db : Database}

lemma table?_schema (db : Database) (name : String) :
    db.schema.table? name = (db.table? name).map Table.schema := by
  unfold table? schema
  rw [List.find?_map]
  rfl

lemma view?_schema (db : Database) (name : String) : db.schema.view? name = db.view? name := rfl

lemma sourceAt_schema (db : Database) (hasPrincipal : Bool) (fuel : Nat) (name : String) :
    db.schema.sourceAt hasPrincipal fuel name = db.sourceAt hasPrincipal fuel name := by
  induction fuel generalizing name with
  | zero =>
    rw [sourceAt.eq_def, sourceAt.eq_def]
    dsimp only
    rw [table?_schema, view?_schema]
    cases db.table? name with
    | some t => rfl
    | none => cases db.view? name <;> rfl
  | succ fuel ih =>
    cases ht : db.table? name with
    | some t =>
      rw [sourceAt_table ht, sourceAt_table (by rw [table?_schema, ht, Option.map_some])]
      rfl
    | none =>
      have ht' : db.schema.table? name = none := by rw [table?_schema, ht, Option.map_none]
      cases hv : db.view? name with
      | none =>
        rw [sourceAt.eq_def, sourceAt.eq_def]
        dsimp only
        rw [ht, ht', view?_schema, hv]
      | some v => rw [sourceAt_view ht hv, sourceAt_view ht' hv, funext ih]

lemma binder_schema (db : Database) (hasPrincipal : Bool) :
    db.schema.binder hasPrincipal = db.binder hasPrincipal := by
  unfold binder
  rw [funext (sourceAt_schema db hasPrincipal db.schema.views.length)]
  rfl

lemma binder_congr {db' : Database} (h : db.schema = db'.schema) (hasPrincipal : Bool) :
    db.binder hasPrincipal = db'.binder hasPrincipal := by
  rw [← binder_schema, h, binder_schema]

/-! ### Storing a table -/

lemma table?_setTable (db : Database) (t : Table) (name : String) :
    (db.setTable t).table? name =
      (db.table? name).map fun u => if u.name == t.name then t else u := by
  unfold table? setTable
  rw [List.find?_map]
  congr 1
  refine congrArg (fun p => List.find? p db.tables) (funext fun u => ?_)
  dsimp only [Function.comp]
  split
  next h => rw [beq_iff_eq.mp h]
  next => rfl

lemma tableRows_setTable {t : Table} {name : String} (h : Text.sameName t.name name = false) :
    (db.setTable t).tableRows name = db.tableRows name := by
  unfold tableRows
  rw [table?_setTable]
  cases hu : db.table? name with
  | none => rfl
  | some u =>
    have hname := sameName_of_table? hu
    have hne : (u.name == t.name) = false := by
      refine Bool.eq_false_iff.mpr fun heq => ?_
      rw [beq_iff_eq.mp heq, h] at hname
      cases hname
    simp only [Option.map_some, hne]
    rfl

lemma schema_setTable {t : Table}
    (h : ∀ u ∈ db.tables, u.name = t.name → t.schema = u.schema) :
    (db.setTable t).schema = db.schema := by
  unfold schema setTable
  simp only [List.map_map, Database.mk.injEq, and_true]
  refine List.map_congr_left fun u hu => ?_
  dsimp only [Function.comp]
  split
  next heq => exact h u hu (beq_iff_eq.mp heq)
  next => rfl

end Database

/-! ### Tables that are read -/

mutual

def BoundExpr.tables : BoundExpr → List String
  | .castText e => BoundExpr.tables e
  | .not e => BoundExpr.tables e
  | .compare _ _ l r => BoundExpr.tables l ++ BoundExpr.tables r
  | .same _ _ l r => BoundExpr.tables l ++ BoundExpr.tables r
  | .inList _ _ e items => BoundExpr.tables e ++ BoundExpr.tablesAll items
  | .inQuery _ _ e q => BoundExpr.tables e ++ BoundQuery.tables q
  | .and children => BoundExpr.tablesAll children
  | .or children => BoundExpr.tablesAll children
  | _ => []

def BoundExpr.tablesAll : List BoundExpr → List String
  | [] => []
  | e :: rest => BoundExpr.tables e ++ BoundExpr.tablesAll rest

def BoundExpr.tablesRows : List (List BoundExpr) → List String
  | [] => []
  | row :: rest => BoundExpr.tablesAll row ++ BoundExpr.tablesRows rest

def BoundQuery.tables : BoundQuery → List String
  | .select _ outputs source filter =>
    BoundExpr.tablesAll outputs ++ BoundSource.tables source ++ BoundExpr.tables filter
  | .values rows => BoundExpr.tablesRows rows

def BoundSource.tables : BoundSource → List String
  | .unit => []
  | .table name => [name]
  | .query q => BoundQuery.tables q

end

section

variable {db db' : Database} {env : Env}

mutual

lemma BoundExpr.eval_congr {e : BoundExpr}
    (h : ∀ name ∈ e.tables, db.tableRows name = db'.tableRows name) (frames : Frames) :
    e.eval db env frames = e.eval db' env frames := by
  match e with
  | .const _ | .param _ | .principal | .column _ _ => rw [BoundExpr.eval, BoundExpr.eval]
  | .castText e | .not e =>
    rw [BoundExpr.tables] at h
    rw [BoundExpr.eval, BoundExpr.eval, BoundExpr.eval_congr h]
  | .compare _ _ l r | .same _ _ l r =>
    rw [BoundExpr.tables, List.forall_mem_append] at h
    rw [BoundExpr.eval, BoundExpr.eval, BoundExpr.eval_congr h.1, BoundExpr.eval_congr h.2]
  | .inList _ _ e items =>
    rw [BoundExpr.tables, List.forall_mem_append] at h
    rw [BoundExpr.eval, BoundExpr.eval, BoundExpr.eval_congr h.1,
      (BoundExpr.lists_congr (BoundExpr.values_congr h.2 frames)).1]
  | .inQuery _ _ e q =>
    rw [BoundExpr.tables, List.forall_mem_append] at h
    rw [BoundExpr.eval, BoundExpr.eval, BoundExpr.eval_congr h.1, BoundQuery.rows_congr h.2]
  | .and children =>
    rw [BoundExpr.tables] at h
    rw [BoundExpr.eval, BoundExpr.eval,
      (BoundExpr.lists_congr (BoundExpr.values_congr h frames)).2.1]
  | .or children =>
    rw [BoundExpr.tables] at h
    rw [BoundExpr.eval, BoundExpr.eval,
      (BoundExpr.lists_congr (BoundExpr.values_congr h frames)).2.2]

lemma BoundExpr.values_congr {es : List BoundExpr}
    (h : ∀ name ∈ BoundExpr.tablesAll es, db.tableRows name = db'.tableRows name)
    (frames : Frames) : ∀ e ∈ es, e.eval db env frames = e.eval db' env frames := by
  match es with
  | [] => exact fun _ he => absurd he List.not_mem_nil
  | e :: rest =>
    rw [BoundExpr.tablesAll, List.forall_mem_append] at h
    exact List.forall_mem_cons.mpr
      ⟨BoundExpr.eval_congr h.1 frames, BoundExpr.values_congr h.2 frames⟩

lemma BoundExpr.evalRows_congr {rows : List (List BoundExpr)}
    (h : ∀ name ∈ BoundExpr.tablesRows rows, db.tableRows name = db'.tableRows name)
    (frames : Frames) :
    BoundExpr.evalRows db env frames rows = BoundExpr.evalRows db' env frames rows := by
  match rows with
  | [] => rw [BoundExpr.evalRows, BoundExpr.evalRows]
  | row :: rest =>
    rw [BoundExpr.tablesRows, List.forall_mem_append] at h
    rw [BoundExpr.evalRows, BoundExpr.evalRows, BoundExpr.evalRows_congr h.2,
      (BoundExpr.lists_congr (BoundExpr.values_congr h.1 frames)).1]

lemma BoundQuery.rows_congr {q : BoundQuery}
    (h : ∀ name ∈ q.tables, db.tableRows name = db'.tableRows name) (frames : Frames) :
    q.rows db env frames = q.rows db' env frames := by
  match q with
  | .select distinct outputs source filter =>
    rw [BoundQuery.tables, List.forall_mem_append, List.forall_mem_append] at h
    have houtputs := fun frames => (BoundExpr.lists_congr (BoundExpr.values_congr h.1.1 frames)).1
    rw [BoundQuery.rows, BoundQuery.rows, BoundSource.rows_congr h.1.2]
    simp only [BoundExpr.eval_congr h.2, houtputs]
  | .values rows =>
    rw [BoundQuery.tables] at h
    rw [BoundQuery.rows, BoundQuery.rows, BoundExpr.evalRows_congr h]

/-- A source yields the same rows if the tables that it reads have the same rows. -/
lemma BoundSource.rows_congr {s : BoundSource}
    (h : ∀ name ∈ s.tables, db.tableRows name = db'.tableRows name) :
    s.rows db env = s.rows db' env := by
  match s with
  | .unit => rw [BoundSource.rows, BoundSource.rows]
  | .table name =>
    rw [BoundSource.tables, List.forall_mem_singleton] at h
    rw [BoundSource.rows, BoundSource.rows, h]
  | .query q =>
    rw [BoundSource.tables] at h
    rw [BoundSource.rows, BoundSource.rows, BoundQuery.rows_congr h]

end

end

/-! ### Insertions -/

lemma Text.mem_insertByKey {α κ : Type} {lt : κ → κ → Bool} {key : α → κ} {a b : α}
    {l : List α} : b ∈ insertByKey lt key a l ↔ b = a ∨ b ∈ l := by
  induction l with
  | nil => simp [insertByKey]
  | cons c rest ih =>
    rw [insertByKey]
    split
    next => rw [List.mem_cons]
    next => rw [List.mem_cons, ih, List.mem_cons, or_left_comm]

namespace Table

variable {t t' : Table} {given : List (Nat × Cell)} {id : Option Cell} {rowId : Int}

lemma mem_place {row r : Row} : r ∈ t.place row ↔ r = row ∨ r ∈ t.rows := by
  unfold place
  split
  next => rw [List.mem_append, List.mem_singleton, or_comm]
  next => exact Text.mem_insertByKey

def withRow (t : Table) (row : Row) : Table := { t with rows := t.place row }

def insertedCells (t : Table) (given : List (Nat × Cell)) (rowId : Int) : List Cell :=
  match t.rowIdIndex? with
  | some i => (t.newCells given).set i (.int rowId)
  | none => t.newCells given

lemma length_insertedCells (t : Table) (given : List (Nat × Cell)) (rowId : Int) :
    (t.insertedCells given rowId).length = t.columns.length := by
  unfold insertedCells
  split <;> simp [newCells]

lemma length_changedCells (t : Table) (cells : List Cell) (changes : List (Nat × Cell)) :
    (t.changedCells cells changes).length = cells.length := by
  unfold changedCells
  induction changes generalizing cells with
  | nil => rfl
  | cons change changes ih =>
    rw [List.foldl_cons, ih]
    exact List.length_set

lemma insert_eq_ok (h : t.insert given id = .ok (t', rowId)) :
    t.checkRow t.rows ⟨rowId, t.insertedCells given rowId⟩ = .ok () ∧
      t' = t.withRow ⟨rowId, t.insertedCells given rowId⟩ := by
  unfold insert at h
  unfold insertedCells
  cases hindex : t.rowIdIndex? with
  | some i | none =>
    simp only [hindex] at h ⊢
    -- Whether the row id is given or the next one, the rest is the same.
    split at h
    all_goals
      obtain ⟨found, -, h⟩ := bind_eq_ok.mp h
      obtain ⟨_, hcheck, h⟩ := bind_eq_ok.mp h
      cases h
      exact ⟨hcheck, rfl⟩

/-- A row passes its check if it has the values that it must have, and its id and its unique values
are those of no other row. -/
lemma checkRow_iff {others : List Row} {row : Row} :
    t.checkRow others row = .ok () ↔ t.checkNotNull row.cells = .ok () ∧
      (t.withoutRowId = false → ∀ other ∈ others, other.id ≠ row.id) ∧
      ∀ other ∈ others, ∀ is ∈ t.uniqueSets, agree is other.cells row.cells = false := by
  rw [checkRow, bind_eq_ok, exists_unit, checkUnique]
  refine and_congr_right fun _ => ?_
  split
  next hsame =>
    rw [Bool.and_eq_true, Bool.not_eq_true'] at hsame
    obtain ⟨other, hother, hid⟩ := List.any_eq_true.mp hsame.2
    exact iff_of_false nofun fun h => h.1 hsame.1 other hother (beq_iff_eq.mp hid)
  next hids =>
    split
    next is his =>
      have hany := List.find?_some his
      obtain ⟨other, hother, hagree⟩ := List.any_eq_true.mp hany
      refine iff_of_false nofun fun h => Bool.false_ne_true ?_
      exact (h.2 other hother is (List.mem_of_find?_eq_some his)).symm.trans hagree
    next hnone =>
      refine iff_of_true rfl
        ⟨fun hwithout other hother hid => hids ?_, fun other hother is his => ?_⟩
      · rw [hwithout, Bool.not_false, Bool.true_and]
        exact List.any_eq_true.mpr ⟨other, hother, beq_iff_eq.mpr hid⟩
      · have hany := List.find?_eq_none.mp hnone is his
        rw [Bool.not_eq_true, List.any_eq_false] at hany
        simpa using hany other hother

end Table

end RowPolicy
