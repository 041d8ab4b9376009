import RowPolicy.Admin.Install
import RowPolicy.Proofs.Database.Depth
import RowPolicy.Proofs.Store.Tables

/-!
# Views in the database

A view is created in place of the one with its name, which is compared without regard to case. The
other views and the tables stay.
-/

namespace RowPolicy

open Sql

lemma Text.sameName_comm (a b : String) : sameName a b = sameName b a := by
  rw [sameName, sameName, Bool.beq_comm]

namespace Database

variable {db db' db'' : Database} {env : Env} {effect : Database.Effect} {name sql : String}
  {names names' : List String}

def withoutView (db : Database) (name : String) : Database :=
  { db with views := db.views.filter fun v => !Text.sameName v.name name }

def withView (db : Database) (v : View) : Database := { db with views := db.views ++ [v] }

/-- Only rows of the store and views with given names, up to case, are other ones; new views have
no parameters and no reserved names. -/
structure Alters (names : List String) (db db' : Database) : Prop where
  tables : db'.schema.tables = db.schema.tables
  others : ∀ name t, db.table? name = some t → t.name ∉ Store.tableNames → db'.table? name = some t
  views : ∀ other, (∀ name ∈ names, Text.sameName name other = false) →
    db'.view? other = db.view? other
  created : ∀ v ∈ db'.views, v ∈ db.views ∨ v.query.params = 0 ∧ isReserved v.name = false

namespace Alters

lemma of_spares (h : Store.Spares db db') : Alters names db db' where
  tables := by rw [h.schema]
  others := h.others
  views other _ := by rw [← view?_schema, h.schema, view?_schema]
  created v hv := by
    have hviews : db'.views = db.views :=
      (congrArg Database.views h.schema : db'.schema.views = _)
    exact .inl (hviews ▸ hv)

lemma refl (db : Database) : Alters names db db := of_spares ⟨fun _ _ ht _ => ht, rfl⟩

lemma trans (h : Alters names db db') (h' : Alters names' db' db'') :
    Alters (names ++ names') db db'' where
  tables := h'.tables.trans h.tables
  others name t ht hname := h'.others name t (h.others name t ht hname) hname
  views other hother := by
    rw [List.forall_mem_append] at hother
    rw [h'.views other hother.2, h.views other hother.1]
  created v hv := (h'.created v hv).elim (h.created v) .inr

lemma mono (h : Alters names db db') (hnames : ∀ name ∈ names, name ∈ names') :
    Alters names' db db' where
  tables := h.tables
  others := h.others
  views other hother := h.views other fun name hname => hother name (hnames name hname)
  created := h.created

lemma closed (h : Alters names db db') (hclosed : ∀ v ∈ db.views, v.query.params = 0) :
    ∀ v ∈ db'.views, v.query.params = 0 :=
  fun v hv => (h.created v hv).elim (hclosed v) And.left

lemma table?_eq {t : Table} (h : Alters names db db') (ht : db'.table? name = some t)
    (hname : t.name ∉ Store.tableNames) : db.table? name = some t := by
  have hschema : db.schema.table? name = db'.schema.table? name := by
    rw [table?, table?, h.tables]
  rw [table?_schema, table?_schema, ht] at hschema
  obtain ⟨u, hu, huschema⟩ := Option.map_eq_some_iff.mp hschema
  have hu' := h.others name u hu (name_of_schema huschema ▸ hname)
  rw [hu, ← hu', ht]

end Alters

/-! ### Views by name -/

lemma view?_withoutView {other : String} (h : Text.sameName name other = false) :
    (db.withoutView name).view? other = db.view? other := by
  unfold view? withoutView
  rw [List.find?_filter]
  congr 1
  funext v
  -- A view with the one name has not the other one.
  cases hother : Text.sameName v.name other with
  | false => simp
  | true =>
    have hname : Text.sameName v.name name = false := by
      rw [Text.sameName_comm, Text.sameName_congr hother, h]
    simp [hname]

lemma view?_withoutView_self : (db.withoutView name).view? name = none := by
  refine List.find?_eq_none.mpr fun v hv => ?_
  have hname := (List.mem_filter.mp hv).2
  simpa using hname

lemma view?_withView {v : View} {other : String} (h : Text.sameName v.name other = false) :
    (db.withView v).view? other = db.view? other := by
  unfold view? withView
  rw [List.find?_append]
  simp [h]

lemma view?_withView_self {v : View} (h : db.view? v.name = none) :
    (db.withView v).view? v.name = some v := by
  unfold view? withView at *
  rw [List.find?_append, h]
  simp [Text.sameName_self]

lemma alters_withoutView : Alters [name] db (db.withoutView name) where
  tables := rfl
  others _ _ ht _ := ht
  views _ hother := view?_withoutView (hother _ (List.mem_singleton.mpr rfl))
  created _ hv := .inl (List.mem_filter.mp hv).1

lemma alters_withView {v : View} (hname : v.name = name) (hparams : v.query.params = 0)
    (hreserved : isReserved name = false) : Alters [name] db (db.withView v) where
  tables := rfl
  others _ _ ht _ := ht
  views _ hother := view?_withView (hname ▸ hother _ (List.mem_singleton.mpr rfl))
  created u hu := by
    obtain hu | hu := List.mem_append.mp hu
    · exact .inl hu
    · rw [List.mem_singleton.mp hu, hname]
      exact .inr ⟨hparams, hreserved⟩

/-! ### Statements on views -/

lemma dropView_eq_ok {ifPresent : Bool} (h : db.dropView name ifPresent = .ok db') :
    db' = db.withoutView name := by
  unfold dropView at h
  split at h
  · cases h
    rfl
  next hnone =>
    split at h
    · cases h
      rw [Bool.not_eq_true, Option.isSome_eq_false_iff, Option.isNone_iff_eq_none] at hnone
      have hviews : db.views.filter (fun v => !Text.sameName v.name name) = db.views :=
        List.filter_eq_self.mpr fun v hv => by simpa using List.find?_eq_none.mp hnone v hv
      rw [withoutView, hviews]
    · cases h

lemma execute_eq_ok (h : db.execute env sql = .ok (db', effect)) :
    ∃ p, db.prepare true sql = .ok p ∧ db.run env p.statement = .ok (db', effect) := by
  obtain ⟨p, hp, h⟩ := bind_eq_ok.mp h
  obtain ⟨_, -, h⟩ := bind_eq_ok.mp h
  exact ⟨p, hp, h⟩

lemma execute_dropView (h : db.execute env (Sql.dropView name) = .ok (db', effect)) :
    db' = db.withoutView name := by
  obtain ⟨p, hp, hrun⟩ := execute_eq_ok h
  obtain ⟨_, bound, rfl, -, hbound, hp⟩ := prepare_parsesAs (parse_dropView name) hp
  obtain ⟨_, -, hbound⟩ := bind_eq_ok.mp hbound
  cases hbound
  rw [hp] at hrun
  obtain ⟨dropped, hdropped, hrun⟩ := bind_eq_ok.mp hrun
  cases hrun
  exact dropView_eq_ok hdropped

/-- The text starts like the creation of a view. -/
def CreatesView (identifier sql : String) : Prop :=
  ∃ more, sql.toList = ("CREATE VIEW " ++ quoteName identifier ++ " AS ").toList ++ more

lemma execute_createView (htext : CreatesView name sql)
    (h : db.execute env sql = .ok (db', effect)) :
    ∃ q rest, parse sql = .one (.createView name false q) rest ∧ isShallow sql ∧
      isReserved name = false ∧ q.params = 0 ∧ db.table? name = none ∧ db.view? name = none ∧
      db' = db.withView ⟨name, sql, q⟩ := by
  obtain ⟨more, htext⟩ := htext
  obtain ⟨p, hp, hrun⟩ := execute_eq_ok h
  obtain ⟨_, rest, bound, ⟨q, rfl⟩, hparse, hshallow, hbound, hp⟩ :=
    prepare_startsAs (parse_createView htext) hp
  rw [bindStatement] at hbound
  simp only [Bool.false_eq_true, if_false] at hbound
  split_ifs at hbound with hrefused hobject
  cases hbound
  rw [hp] at hrun
  obtain ⟨created, hcreated, hrun⟩ := bind_eq_ok.mp hrun
  cases hrun
  simp only [Bool.or_eq_true, decide_eq_true_eq, not_or, Bool.not_eq_true, Nat.not_lt,
    Nat.le_zero] at hrefused
  unfold hasObject at hobject
  simp only [Bool.or_eq_true, not_or, Bool.not_eq_true, Option.isSome_eq_false_iff,
    Option.isNone_iff_eq_none] at hobject
  unfold createView at hcreated
  split_ifs at hcreated
  cases hcreated
  exact ⟨q, rest, hparse, hshallow, hrefused.1, hrefused.2, hobject.1, hobject.2, rfl⟩

/-- A view that was created by a text and can be read. -/
structure Installed (db : Database) (identifier sql : String) : Prop where
  noTable : db.table? identifier = none
  readable : parse (Sql.selectAll identifier) ≠ .error
  shallow : isShallow sql
  exists_view : ∃ q rest, parse sql = .one (.createView identifier false q) rest ∧
    db.view? identifier = some ⟨identifier, sql, q⟩

lemma table?_eq_none_of_schema (h : db'.schema.tables = db.schema.tables)
    (hnone : db.table? name = none) : db'.table? name = none := by
  have hschema : db'.schema.table? name = db.schema.table? name := by rw [table?, table?, h]
  rw [table?_schema, table?_schema, hnone] at hschema
  exact Option.map_eq_none_iff.mp hschema

lemma Installed.congr {identifier : String} (h : db.Installed identifier sql)
    (htables : db'.schema.tables = db.schema.tables)
    (hview : db'.view? identifier = db.view? identifier) : db'.Installed identifier sql where
  noTable := table?_eq_none_of_schema htables h.noTable
  readable := h.readable
  shallow := h.shallow
  exists_view := hview ▸ h.exists_view

lemma Installed.alters {identifier : String} (h : db.Installed identifier sql)
    (halters : Alters names db db')
    (hnames : ∀ name ∈ names, Text.sameName name identifier = false) :
    db'.Installed identifier sql :=
  h.congr halters.tables (halters.views identifier hnames)

end Database

namespace Admin

variable {db db' : Database} {identifier sql : String}

lemma installing_eq_ok {α : Type} {r : Bound α} {a : α} :
    installing identifier r = .ok a ↔ r = .ok a := mapError_eq_ok

/-- A view is created in place of the one with its name. -/
lemma installView_eq_ok (htext : Database.CreatesView identifier sql)
    (h : installView db identifier sql = .ok db') :
    db'.tables = db.tables ∧ db.Alters [identifier] db' ∧ db'.Installed identifier sql := by
  unfold installView at h
  obtain ⟨⟨dropped, _⟩, hdropped, h⟩ := bind_eq_ok.mp h
  obtain ⟨⟨created, _⟩, hcreated, h⟩ := bind_eq_ok.mp h
  obtain ⟨p, hp, h⟩ := bind_eq_ok.mp h
  cases h
  rw [installing_eq_ok] at hdropped hcreated hp
  obtain rfl := Database.execute_dropView hdropped
  obtain ⟨q, rest, hparse, hshallow, hreserved, hparams, htable, hview, rfl⟩ :=
    Database.execute_createView htext hcreated
  refine ⟨rfl, ?_, ⟨htable, ?_, hshallow, q, rest, hparse, Database.view?_withView_self hview⟩⟩
  · have hname : (View.mk identifier sql q).name = identifier := rfl
    exact (Database.alters_withoutView.trans
      (Database.alters_withView hname hparams hreserved)).mono (by simp)
  · intro herror
    rw [Database.prepare, herror] at hp
    cases hp

end Admin

end RowPolicy
