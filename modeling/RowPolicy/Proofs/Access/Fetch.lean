import RowPolicy.Proofs.Access.Selection
import RowPolicy.Proofs.Admin.Views

/-!
# Fetches and reads

A fetch checks the values that the caller supplies and selects the rows that equal them; a read
shows the rows whose stored values pass the checks. The two agree on a row unless a supplied value
passes a check that the stored value it equals does not pass.
-/

namespace RowPolicy

open Sql Naming

/-! ### Plans of read rules -/

namespace Rule

variable {r : Rule} {t : TableShape} {v : ReadView} {a : Accessor}

lemma accessor_eq_ok (h : r.accessor t = .ok a) :
    a.table = t.name ∧ a.projection = r.projection ∧
      (r.predicate = none ∧ a.conditions = [] ∨
        ∃ p, r.predicate = some p ∧ p.leaves? = some a.conditions) := by
  unfold accessor at h
  cases hp : r.predicate with
  | none =>
    rw [hp] at h
    cases h
    exact ⟨rfl, rfl, .inl ⟨rfl, rfl⟩⟩
  | some p =>
    rw [hp, Option.map_some] at h
    cases hleaves : p.leaves? with
    | none =>
      rw [hleaves] at h
      cases h
    | some cs =>
      rw [hleaves] at h
      cases h
      exact ⟨rfl, rfl, .inr ⟨p, rfl, hleaves⟩⟩

/-- What holds of a conjunction exactly if it holds of its parts holds of a rule's condition
exactly if it holds of the conditions of its accessor. -/
lemma filter_iff {P : Fragment → Prop} (hall : ∀ fs, P (.all fs) ↔ ∀ f ∈ fs, P f)
    (halways : P .always) (h : r.accessor t = .ok a) :
    P (r.filter .always) ↔ ∀ c ∈ a.conditions, P c.fragment := by
  rcases accessor_eq_ok h with ⟨-, -, ⟨hp, hc⟩ | ⟨p, hp, hc⟩⟩
  · rw [filter, hp, hc]
    exact iff_of_true halways (by simp)
  · rw [filter, hp]
    exact (Predicate.leaves?_iff hall hc).symm

/-- The condition of a read rule is true for the rows that the rule permits to read. -/
lemma filter_always_isTrue {w : Surroundings} {row : RowValues} (h : r.operation = .read) :
    (r.filter .always).IsTrue w row ↔ r.Permits w row := by
  unfold filter Permits
  cases r.predicate with
  | none => exact iff_of_true rfl h
  | some p => exact Predicate.lowered_isTrue

end Rule

/-! ### Conditions of an accessor -/

/-- What a check looks up is there. -/
def Check.IsBacked (b : Binder) (n : Naming) (c : Check) : Prop :=
  match c.kind with
  | .principal => b.hasPrincipal = true
  | .member lookup => b.Knows n lookup

lemma Check.resolves_iff {b : Binder} {n : Naming} {s : Scope} {c : Check} :
    c.fragment.Resolves b n s ↔ s.Has c.column ∧ c.IsBacked b n := by
  unfold Check.fragment Check.IsBacked
  cases c.kind with
  | principal => simp only [Fragment.Resolves]
  | member lookup => simp only [Fragment.Resolves]

namespace Accessor

variable {a : Accessor} {w : Surroundings} {row : RowValues}

lemma mem_checks {c : Check} : c ∈ a.checks ↔ .check c ∈ a.conditions := by
  unfold checks
  rw [List.mem_filterMap]
  constructor
  · rintro ⟨condition, hmem, hcheck⟩
    cases condition with
    | check c' =>
      cases hcheck
      exact hmem
    | baked column value => cases hcheck
  · exact fun h => ⟨.check c, h, rfl⟩

lemma mem_foldl_addColumn {columns known : List String} {column : String} :
    column ∈ columns.foldl addColumn known ↔ column ∈ known ∨ column ∈ columns := by
  induction columns generalizing known with
  | nil => simp
  | cons c rest ih =>
    have hadd : column ∈ addColumn known c ↔ column ∈ known ∨ column = c := by
      unfold addColumn
      split
      next hc =>
        refine (or_iff_left_of_imp ?_).symm
        rintro rfl
        exact List.contains_iff_mem.mp hc
      next => simp
    rw [List.foldl_cons, ih, hadd, List.mem_cons, or_assoc]

lemma column_mem_parameters {c : Check} (h : c ∈ a.checks) : c.column ∈ a.parameters :=
  mem_foldl_addColumn.mpr (.inr (List.mem_map.mpr ⟨c, h, rfl⟩))

/-- A row that is selected meets all conditions if its stored values pass the checks. -/
lemma conditions_iff {given : String → Cell} (h : a.selects given row = true) :
    (∀ c ∈ a.conditions, c.fragment.IsTrue w row) ↔
      ∀ c ∈ a.checks, c.Accepts w (row.affinity c.column) (row.cell c.column) := by
  obtain ⟨-, hbaked⟩ := Bool.and_eq_true_iff.mp h
  rw [List.all_eq_true] at hbaked
  constructor
  · intro hall c hc
    exact Check.isTrue_iff.mp (hall _ (mem_checks.mp hc))
  · intro hchecks condition hmem
    cases condition with
    | check c => exact Check.isTrue_iff.mpr (hchecks c (mem_checks.mpr hmem))
    | baked column value => exact beq_iff_eq.mp (hbaked _ hmem)

end Accessor

namespace Request

variable {q : Request} {db : Database} {params : Json.Fields} {records : List Json.Fields}

def given (q : Request) (params : Json.Fields) (column : String) : Cell :=
  match q.param params column with
  | .ok c => c
  | .error _ => .null

lemma given_eq {column : String} {c : Cell} (h : q.param params column = .ok c) :
    q.given params column = c := by
  rw [given, h]

/-- A fetch that succeeds has found an accessor, passed its checks and run its query. -/
lemma fetch_eq_ok (h : q.fetch db params = .ok records) :
    ∃ a parameters checks querySql cells,
      q.artifact db .readAccessor .read = .ok (some a) ∧
        a.body = .accessor parameters checks querySql ∧
        q.checkAll db params checks = .ok () ∧
        parameters.mapM (q.param params) = .ok cells ∧
        q.select db querySql cells = .ok records := by
  rw [fetch] at h
  obtain ⟨found, hfound, h⟩ := bind_eq_ok.mp h
  cases found with
  | none =>
    obtain ⟨view, -, h⟩ := bind_eq_ok.mp h
    cases view <;> cases h
  | some a =>
    cases hbody : a.body with
    | accessor parameters checks querySql =>
      simp only [hbody] at h
      obtain ⟨_, hchecks, h⟩ := bind_eq_ok.mp h
      obtain ⟨cells, hcells, h⟩ := bind_eq_ok.mp h
      exact ⟨a, parameters, checks, querySql, cells, hfound, hbody, hchecks, hcells, h⟩
    | view _ | createGuard _ _ | restrictGuard _ _ _ =>
      simp only [hbody] at h
      cases h

lemma fetch_eq_of_artifact {record : ArtifactRecord} {parameters : List String}
    {checks : List RenderedCheck} {querySql : String}
    (h : q.artifact db .readAccessor .read = .ok (some record))
    (hbody : record.body = .accessor parameters checks querySql) :
    q.fetch db params = (do
      q.checkAll db params checks
      let cells ← parameters.mapM (q.param params)
      q.select db querySql cells) := by
  rw [fetch, h, ok_bind]
  simp only [hbody]

lemma read_eq_select {record : ArtifactRecord}
    (h : q.artifact db .readView .read = .ok (some record)) :
    q.read db = q.select db (Sql.selectAll record.identifier) [] := by
  rw [read, h, ok_bind]

lemma checkAll_eq_ok {checks : List RenderedCheck} (h : q.checkAll db params checks = .ok ()) :
    ∀ c ∈ checks, q.holds db c.sql [q.given params c.column] = .ok true := by
  induction checks with
  | nil => simp
  | cons c rest ih =>
    rw [checkAll] at h
    obtain ⟨candidate, hcandidate, h⟩ := bind_eq_ok.mp h
    obtain ⟨passed, hpassed, h⟩ := bind_eq_ok.mp h
    cases passed with
    | false => cases h
    | true =>
      refine List.forall_mem_cons.mpr ⟨?_, ih h⟩
      rw [given_eq hcandidate, hpassed]

lemma mapM_param_eq_ok {columns : List String} {cells : List Cell}
    (h : columns.mapM (q.param params) = .ok cells) (i : Nat) (column : String)
    (hi : columns[i]? = some column) : cells.getD i .null = q.given params column := by
  induction columns generalizing i cells with
  | nil => cases hi
  | cons c rest ih =>
    rw [List.mapM_cons] at h
    obtain ⟨cell, hcell, h⟩ := bind_eq_ok.mp h
    obtain ⟨more, hmore, h⟩ := bind_eq_ok.mp h
    cases h
    cases i with
    | zero =>
      cases hi
      exact (given_eq hcell).symm
    | succ i => exact ih hmore i hi

end Request

lemma createView_inj {x y : String} {i j : Bool} {q q' : Query} {rest rest' : List Lexeme}
    (h : Parsed.one (.createView x i q) rest = .one (.createView y j q') rest') : q = q' := by
  cases h
  rfl

lemma filter_sublist_filter {α : Type} {p p' : α → Bool} {l : List α}
    (h : ∀ x ∈ l, p x = true → p' x = true) : (l.filter p).Sublist (l.filter p') := by
  have hfilter : l.filter p = (l.filter p').filter p := by
    rw [List.filter_filter]
    refine List.filter_congr fun x hx => ?_
    cases hp : p x with
    | false => rfl
    | true => rw [h x hx hp, Bool.and_true]
  rw [hfilter]
  exact List.filter_sublist

/-! ### The registry of a read rule -/

/-- The registry serves a read rule of a table: the view that is found for it is that of the rule,
and it is in the database. -/
structure Naming.ServesRead (n : Naming) (q : Request) (db : Database) (r : Rule) (t : Table) :
    Prop where
  isRead : r.operation = .read
  finite : (r.filter .always).IsFinite
  table : db.table? q.table = some t
  name : t.name = q.table
  distinct : t.ShowsDistinct r.projection
  shown : ∃ shown, (t.scope t.name).project? r.projection = some shown
  found : ∃ record, q.artifact db .readView .read = .ok (some record) ∧
    record.identifier = n.readView t.name
  installed : db.Installed (n.readView t.name)
    (n.readViewSql ⟨t.name, r.projection, r.filter .always⟩)
  closed : ∀ v ∈ db.views, v.query.params = 0

/-- The registry serves a read rule and its accessor. -/
structure Naming.ServesFetch (n : Naming) (q : Request) (db : Database) (r : Rule) (t : Table)
    (a : Accessor) : Prop extends n.ServesRead q db r t where
  accessor : r.accessor t.shape = .ok a
  body : ∀ record, q.artifact db .readAccessor .read = .ok (some record) →
    record.body = n.renderAccessor a

namespace Naming.ServesRead

variable {n : Naming} {q : Request} {db : Database} {r : Rule} {t : Table}
  {records : List Json.Fields}

/-- The view that is in the database selects the columns of the rule from the rows that its
condition holds for. -/
lemma exists_view (h : n.ServesRead q db r t) :
    ∃ view os e, db.view? (n.readView t.name) = some view ∧
      view.query = .select false os (.named t.name none) e ∧
      IsProjection t.name r.projection os ∧ (r.filter .always).Denotes n t.name e := by
  obtain ⟨query, rest, hparse, hview⟩ := h.installed.exists_view
  have hfinite : (ReadView.mk t.name r.projection (r.filter .always)).filter.IsFinite := h.finite
  rcases parse_readView n hfinite with ⟨-, _, hcreate, os, e, rfl, hos, he⟩ | ⟨-, herror⟩
  · rw [hcreate] at hparse
    exact ⟨_, os, e, hview, (createView_inj hparse).symm, hos, he⟩
  · rw [herror] at hparse
    cases hparse

lemma table_name (h : n.ServesRead q db r t) : db.table? t.name = some t := by
  rw [h.name, h.table]

lemma read_eq_view (h : n.ServesRead q db r t) :
    q.read db = q.select db (Sql.selectAll (n.readView t.name)) [] := by
  obtain ⟨record, hrecord, hidentifier⟩ := h.found
  rw [Request.read_eq_select hrecord, hidentifier]

lemma parse_view (h : n.ServesRead q db r t) :
    parse (Sql.selectAll (n.readView t.name)) =
      .one (.query (allRows (n.readView t.name))) [] :=
  (parse_selectAll (n.readView t.name)).eq h.installed.readable

/-- If the condition can be bound, a read yields the rows that it holds for. -/
lemma read_eq (h : n.ServesRead q db r t)
    (hresolves : (r.filter .always).Resolves (db.binder true) n (t.scope t.name)) :
    q.read db = .ok ((t.rows.filter fun row => (r.filter .always).truth
      ((db.binder true).surroundings db (q.env []) n) (t.values row) == some true).map
        (t.record r.projection)) := by
  obtain ⟨view, os, e, hview, hquery, hos, he⟩ := h.exists_view
  rw [h.read_eq_view]
  exact Request.select_view (v := ⟨t.name, r.projection, r.filter .always⟩) h.table_name
    h.installed.noTable hview hquery hos he h.shown h.distinct hresolves h.parse_view

lemma resolves_of_read (h : n.ServesRead q db r t) (hread : q.read db = .ok records) :
    (r.filter .always).Resolves (db.binder true) n (t.scope t.name) := by
  obtain ⟨view, os, e, hview, hquery, -, he⟩ := h.exists_view
  rw [h.read_eq_view] at hread
  obtain ⟨names, rows, hselect, -⟩ := Request.select_eq_ok.mp hread
  obtain ⟨all, headings, hall, -⟩ := (Database.select_eq_ok h.parse_view).mp hselect
  obtain ⟨source, columns, hasRowId, -, -, -, hfind, -⟩ := Binder.select_eq_ok.mp hall
  obtain ⟨⟨bound, shown⟩, hbound, -⟩ :=
    (Database.find_view_eq_ok h.installed.noTable hview).mp hfind
  rw [hquery] at hbound
  obtain ⟨_, _, _, _, filter, a, htable, -, hfilter, -⟩ := Binder.select_eq_ok.mp hbound
  have hfits := Binder.claimsFit_of_find htable n
  rw [Database.find_table h.table_name] at htable
  cases htable
  exact (Binder.fragment_isOk hfits he).mp (isOk_iff.mpr ⟨_, hfilter⟩)

end Naming.ServesRead

namespace Naming.ServesFetch

variable {n : Naming} {q : Request} {db : Database} {r : Rule} {t : Table} {a : Accessor}
  {params : Json.Fields} {records : List Json.Fields}

lemma condition_isFinite (h : n.ServesFetch q db r t a) {c : Condition}
    (hc : c ∈ a.conditions) : c.fragment.IsFinite :=
  (Rule.filter_iff (fun _ => Fragment.areFinite_iff) trivial h.accessor).mp h.finite c hc

lemma fetch_eq_ok (h : n.ServesFetch q db r t a) (hfetch : q.fetch db params = .ok records) :
    (∀ c ∈ a.checks,
      q.holds db (n.renderCheck c).sql [q.given params c.column] = .ok true) ∧
    ∃ cells, (∀ i c, a.parameters[i]? = some c → cells.getD i .null = q.given params c) ∧
      q.select db (n.accessorQuery a) cells = .ok records := by
  obtain ⟨record, parameters, checks, querySql, cells, hrecord, hbody, hchecks, hcells, hselect⟩ :=
    Request.fetch_eq_ok hfetch
  rw [h.body record hrecord, renderAccessor] at hbody
  cases hbody
  refine ⟨fun c hc => ?_, cells, Request.mapM_param_eq_ok hcells, hselect⟩
  exact Request.checkAll_eq_ok hchecks _ (List.mem_map.mpr ⟨c, hc, rfl⟩)

/-- What a fetch that succeeds has checked and looked up, and the rows that it yields. -/
lemma fetched (h : n.ServesFetch q db r t a) (hfetch : q.fetch db params = .ok records) :
    (∀ c ∈ a.checks, c.Accepts ((db.binder true).surroundings db (q.env []) n) .none
      (q.given params c.column)) ∧
    (r.filter .always).Resolves (db.binder true) n (t.scope t.name) ∧
    records = (t.rows.filter fun row => a.selects (q.given params) (t.values row)).map
      (t.record r.projection) := by
  obtain ⟨hchecks, cells, hgiven, hselect⟩ := h.fetch_eq_ok hfetch
  obtain ⟨htable, hprojection, -⟩ := Rule.accessor_eq_ok h.accessor
  have haccepts := fun c hc => Request.accepts_of_holds
    (h.condition_isFinite (Accessor.mem_checks.mp hc)) (Database.binder_isFixed h.closed)
    (hchecks c hc)
  have ht : db.table? a.table = some t := by
    rw [htable]
    exact h.table_name
  rcases parse_accessorQuery n fun column value hc => h.condition_isFinite hc with
    ⟨-, _, hparse, os, rfl, hos⟩ | ⟨-, herror⟩
  · obtain ⟨-, ⟨hparameters, hbaked⟩, hrecords⟩ :=
      Request.select_accessor ht hparse hos hgiven hselect
    rw [hprojection] at hrecords
    refine ⟨fun c hc => (haccepts c hc).1, ?_, hrecords⟩
    -- The literals are resolved in the query, the checks each on its own.
    refine (Rule.filter_iff (fun _ => Fragment.resolveAll_iff) trivial h.accessor).mpr
      fun condition hc => ?_
    cases condition with
    | baked column value => exact hbaked column value hc
    | check c =>
      have hc' := Accessor.mem_checks.mpr hc
      exact Check.resolves_iff.mpr ⟨hparameters _ (Accessor.column_mem_parameters hc'),
        (Check.resolves_iff.mp (haccepts c hc').2).2⟩
  · obtain ⟨names, rows, hselect, -⟩ := Request.select_eq_ok.mp hselect
    exact absurd hselect (Database.select_error herror)

/-- A row that is selected is permitted exactly if its stored values pass the checks. -/
lemma permits_iff (h : n.ServesFetch q db r t a) {w : Surroundings} {row : RowValues}
    (hselects : a.selects (q.given params) row = true) :
    r.Permits w row ↔
      ∀ c ∈ a.checks, c.Accepts w (row.affinity c.column) (row.cell c.column) := by
  rw [← Rule.filter_always_isTrue h.isRead, ← Accessor.conditions_iff hselects]
  exact Rule.filter_iff (fun _ => Fragment.truthOfAll_eq_true) rfl h.accessor

end Naming.ServesFetch

end RowPolicy
