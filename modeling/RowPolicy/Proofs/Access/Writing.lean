import RowPolicy.Proofs.Access.Visibility

/-!
# What requests write

A create, an update or a deletion changes rows of the table that it names, and nothing else. No name
is bound otherwise afterwards, and every row has a cell for each column as before.
-/

namespace RowPolicy

open Store

/-! ### Rows of one table -/

namespace Table

variable {t t' : Table} {changes : List (Nat × Cell)} {id : Option Cell}

/-- The rows of a table are changed: the columns stay, and so does the width of the rows. -/
structure Changes (t t' : Table) : Prop where
  schema : t'.schema = t.schema
  full : t.IsFull → t'.IsFull

lemma Changes.refl (t : Table) : t.Changes t := ⟨rfl, id⟩

lemma Changes.trans {t'' : Table} (h : t.Changes t') (h' : t'.Changes t'') : t.Changes t'' :=
  ⟨h'.schema.trans h.schema, fun hfull => h'.full (h.full hfull)⟩

lemma columns_of_schema (h : t'.schema = t.schema) : t'.columns = t.columns :=
  (congrArg Table.columns h : t'.schema.columns = t.schema.columns)

lemma update_eq_place {old : Row} (h : t.update old changes id = .ok t') :
    ∃ row : Row, row.cells.length = old.cells.length ∧
      t' = { t with rows := Table.place { t with rows := t.rows.erase old } row } := by
  unfold update at h
  dsimp only at h
  -- Whether the row id changes or not, the rest is the same.
  split at h
  all_goals
    obtain ⟨rowId, -, h⟩ := bind_eq_ok.mp h
    obtain ⟨_, -, h⟩ := bind_eq_ok.mp h
    cases h
    refine ⟨_, ?_, rfl⟩
    dsimp only
    split <;> simp [length_changedCells]

lemma changes_update {old : Row} (hold : old.cells.length = t.columns.length)
    (h : t.update old changes id = .ok t') :
    t.Changes t' := by
  obtain ⟨row, hwidth, rfl⟩ := update_eq_place h
  refine ⟨rfl, fun hfull r hr => ?_⟩
  rcases mem_place.mp hr with rfl | hr
  · exact hwidth.trans hold
  · exact hfull r (List.mem_of_mem_erase hr)

lemma changes_insert {given : List (Nat × Cell)} {rowId : Int}
    (h : t.insert given id = .ok (t', rowId)) : t.Changes t' := by
  obtain ⟨-, rfl⟩ := insert_eq_ok h
  refine ⟨rfl, fun hfull r hr => ?_⟩
  rcases mem_place.mp hr with rfl | hr
  · exact length_insertedCells t given rowId
  · exact hfull r hr

end Table

namespace Database

variable {db db' : Database} {env : Env} {effect : Effect} {t t' : Table} {name : String}
  {changes : List (Option Nat × BoundExpr)}

/-- Rows of the table with a name are changed. -/
def Rewrites (name : String) (db db' : Database) : Prop :=
  ∃ t t' : Table, db.table? name = some t ∧ t.Changes t' ∧ db' = db.setTable t'

/-- The changes of an update keep the width of the rows, if the rows to be changed have it. -/
lemma changes_updateRows {rows : List Row} (hrows : ∀ r ∈ rows, r.cells.length = t.columns.length)
    (h : Database.updateRows db env changes t rows = .ok t') : t.Changes t' := by
  induction rows generalizing t with
  | nil =>
    rw [updateRows] at h
    cases h
    exact .refl _
  | cons r rest ih =>
    rw [updateRows] at h
    obtain ⟨t₁, hupdate, h⟩ := bind_eq_ok.mp h
    obtain ⟨hr, hrest⟩ := List.forall_mem_cons.mp hrows
    have hfirst := Table.changes_update hr hupdate
    refine hfirst.trans (ih (fun r hr => ?_) h)
    rw [Table.columns_of_schema hfirst.schema]
    exact hrest r hr

lemma run_update {filter : BoundExpr} (hfull : ∀ t, db.table? name = some t → t.IsFull)
    (h : db.run env (.update name changes filter) = .ok (db', effect)) : db.Rewrites name db' := by
  rw [run.eq_def] at h
  dsimp only at h
  obtain ⟨t, ht, h⟩ := bind_eq_ok.mp h
  rw [writable_eq_ok] at ht
  obtain ⟨t', hrows, h⟩ := bind_eq_ok.mp h
  cases h
  refine ⟨t, t', ht, changes_updateRows (fun r hr => ?_) hrows, rfl⟩
  exact hfull t ht r (List.mem_filter.mp hr).1

lemma run_delete {filter : BoundExpr}
    (h : db.run env (.delete name filter) = .ok (db', effect)) : db.Rewrites name db' := by
  rw [run.eq_def] at h
  dsimp only at h
  obtain ⟨t, ht, h⟩ := bind_eq_ok.mp h
  rw [writable_eq_ok] at ht
  cases h
  refine ⟨t, { t with rows := t.rows.filter _ }, ht, ⟨rfl, fun hfull r hr => ?_⟩, rfl⟩
  exact hfull r (List.mem_filter.mp hr).1

lemma Rewrites.congr {name' : String} (h : db.Rewrites name db')
    (hname : db.table? name = db.table? name') : db.Rewrites name' db' := by
  obtain ⟨t, t', ht, h⟩ := h
  exact ⟨t, t', hname ▸ ht, h⟩

end Database

/-! ### Requests that write -/

namespace Request

variable {q : Request} {db db' : Database} {params : List Cell} {sql : String}

lemma execute_eq_ok {effect : Database.Effect}
    (h : q.execute db sql params = .ok (db', effect)) :
    ∃ p, db.prepare true sql = .ok p ∧
      db.run (q.env params) p.statement = .ok (db', effect) := by
  rw [execute] at h
  obtain ⟨p, hp, h⟩ := bind_eq_ok.mp h
  obtain ⟨_, -, h⟩ := bind_eq_ok.mp h
  split at h
  · cases h
  · exact ⟨p, ofStorage_eq_ok.mp hp, ofStorage_eq_ok.mp h⟩

lemma finish_eq_ok {effect : Database.Effect} {result : Database × Nat}
    (h : q.finish db effect = .ok result) : result.1 = db := by
  unfold finish at h
  split at h <;> cases h
  rfl

lemma update_rewrites {key : Json} {changes : Json.Fields} {count : Nat}
    (hfull : ∀ t, db.table? q.table = some t → t.IsFull)
    (h : q.update db key changes = .ok (db', count)) : db.Rewrites q.table db' := by
  rw [update] at h
  obtain ⟨⟨columns, keyColumn, filterSql⟩, -, h⟩ := bind_eq_ok.mp h
  dsimp only at h
  split at h
  · cases h
  obtain ⟨_, -, h⟩ := bind_eq_ok.mp h
  obtain ⟨cells, -, h⟩ := bind_eq_ok.mp h
  obtain ⟨keyCell, -, h⟩ := bind_eq_ok.mp h
  obtain ⟨⟨db₁, effect⟩, hexecute, h⟩ := bind_eq_ok.mp h
  obtain rfl : db' = db₁ := finish_eq_ok h
  obtain ⟨p, hp, hrun⟩ := execute_eq_ok hexecute
  -- The start of the text alone says which table is written.
  obtain ⟨more, htext⟩ : ∃ more, (Sql.update q.table keyColumn (changes.map (·.1))
      filterSql).toList = ("UPDATE " ++ Sql.quoteName q.table ++ " SET ").toList ++ more := by
    unfold Sql.update
    simp only [String.toList_append, List.append_assoc]
    exact ⟨_, rfl⟩
  obtain ⟨_, _, bound, ⟨cs, f, rfl⟩, -, -, hbound, hp⟩ :=
    Database.prepare_startsAs (Sql.parse_update htext) hp
  rw [Database.bindStatement] at hbound
  obtain ⟨t, ht, hbound⟩ := bind_eq_ok.mp hbound
  obtain ⟨cs', -, hbound⟩ := bind_eq_ok.mp hbound
  obtain ⟨⟨f', _⟩, -, hbound⟩ := bind_eq_ok.mp hbound
  cases hbound
  rw [hp] at hrun
  have htable : db.table? t.name = db.table? q.table :=
    Database.table?_congr (Database.sameName_of_table? (Database.writable_eq_ok.mp ht))
  exact (Database.run_update (fun u hu => hfull u (htable ▸ hu)) hrun).congr htable

lemma delete_rewrites {key : Json} {count : Nat} (h : q.delete db key = .ok (db', count)) :
    db.Rewrites q.table db' := by
  rw [delete] at h
  obtain ⟨⟨columns, keyColumn, filterSql⟩, -, h⟩ := bind_eq_ok.mp h
  obtain ⟨keyCell, -, h⟩ := bind_eq_ok.mp h
  obtain ⟨⟨db₁, effect⟩, hexecute, h⟩ := bind_eq_ok.mp h
  obtain rfl : db' = db₁ := finish_eq_ok h
  obtain ⟨p, hp, hrun⟩ := execute_eq_ok hexecute
  obtain ⟨more, htext⟩ : ∃ more, (Sql.delete q.table keyColumn filterSql).toList =
      ("DELETE FROM " ++ Sql.quoteName q.table ++ " WHERE ").toList ++ more := by
    unfold Sql.delete
    simp only [String.toList_append, List.append_assoc]
    exact ⟨_, rfl⟩
  obtain ⟨_, _, bound, ⟨f, rfl⟩, -, -, hbound, hp⟩ :=
    Database.prepare_startsAs (Sql.parse_delete htext) hp
  rw [Database.bindStatement] at hbound
  obtain ⟨t, ht, hbound⟩ := bind_eq_ok.mp hbound
  obtain ⟨⟨f', _⟩, -, hbound⟩ := bind_eq_ok.mp hbound
  cases hbound
  rw [hp] at hrun
  exact (Database.run_delete hrun).congr
    (Database.table?_congr (Database.sameName_of_table? (Database.writable_eq_ok.mp ht)))

end Request

lemma Client.create_rewrites {c c' : Client} {q : Request} {db db' : Database}
    {row : Json.Fields} {id : Int} (h : c.create q db row = (c', .ok (db', id))) :
    db.Rewrites q.table db' := by
  obtain ⟨_, _, _, _, -, -, hrow, -, -⟩ := Client.create_eq_ok h
  obtain ⟨t, given, id, t', rowId, ht, hinsert, rfl, -⟩ := Request.insertRow_eq_ok hrow
  exact ⟨t, t', ht, Table.changes_insert hinsert, rfl⟩

namespace Store

variable {db : Database} {c : Contents}

lemma Contains.name_eq {name : String} {t : Table} (h : Contains db c) (hname : name ∈ tableNames)
    (ht : db.table? name = some t) : t.name = name := by
  have hexact : ∀ (T u : Table), db.table? T.name = some u → u.schema = T → T.name = name →
      t.name = name := fun T u hu hschema hT => by
    subst hT
    cases ht.symm.trans hu
    exact (congrArg Table.name hschema : t.schema.name = T.name)
  simp only [tableNames, Store.tables, List.map_cons, List.map_nil, List.mem_cons,
    List.not_mem_nil, or_false] at hname
  obtain ⟨tr, htr, hr, -⟩ := h.rules.holds
  obtain ⟨tk, htk, hk, -⟩ := h.claims.holds
  obtain ⟨ta, hta, ha, -⟩ := h.artifacts.holds
  rcases hname with hname | hname | hname
  · exact hexact _ tr htr hr hname.symm
  · exact hexact _ tk htk hk hname.symm
  · exact hexact _ ta hta ha hname.symm

end Store

namespace Admin

variable {n : Naming} {db db' : Database} {c : Contents} {r d : Rule} {t : Table}

lemma rowsWritten_setTable {name : String} {t' : Table} (hc : Contains db c)
    (hfull : ∀ name u, db.table? name = some u → u.name ∉ tableNames → u.IsFull)
    (ht : db.table? name = some t) (hexact : t.name = name) (huser : name ∉ tableNames)
    (hchanges : t.Changes t') : RowsWritten db (db.setTable t') := by
  subst hexact
  have hname : t'.name = t.name := Database.name_of_schema hchanges.schema
  refine ⟨hc.distinct.schema_setTable ht hchanges.schema, fun name hmem => ?_,
    fun u hu hother => ?_⟩
  · rw [Database.table?_setTable]
    cases hfound : db.table? name with
    | none => rfl
    | some u =>
      have hne : u.name ≠ t'.name := fun heq => by
        rw [hc.name_eq hmem hfound, hname] at heq
        exact huser (heq ▸ hmem)
      rw [Option.map_some, if_neg (by simpa using hne)]
  · obtain ⟨u₀, hu₀, rfl⟩ := List.mem_map.mp hu
    by_cases heq : (u₀.name == t'.name) = true
    · rw [if_pos heq]
      exact hchanges.full (hfull t.name t ht huser)
    · rw [if_neg heq] at hother ⊢
      exact hfull u₀.name u₀ (hc.distinct.table?_eq hu₀) hother

/-- Changing rows of a table that a rule is about writes rows beside the store. -/
lemma rowsWritten_of_rewrites (h : n.Serves db r d t) (hc : Contains db c)
    (hfull : ∀ name u, db.table? name = some u → u.name ∉ tableNames → u.IsFull)
    (hwrites : db.Rewrites r.table db') : RowsWritten db db' := by
  obtain ⟨t₁, t', ht, hchanges, rfl⟩ := hwrites
  cases h.table.symm.trans ht
  exact rowsWritten_setTable hc hfull ht h.name (not_mem_tableNames_of_isUserTable h.isUser)
    hchanges

end Admin

end RowPolicy
