import RowPolicy.Proofs.Access.Lookup
import RowPolicy.Proofs.Sql.ClaimViews

/-!
# Claims over tables

The view of a claim over a table shows the columns of the claim for every row of the table. So the
rows of the claim are those of the table, whoever asks, and every lookup of a property that the
claim exposes can be bound.
-/

namespace RowPolicy

open Sql Naming Store

/-! ### Columns under new names -/

/-- The places of columns of a row, with their headings under new names. -/
def Scope.rename? (s : Scope) (columns : List (String × String)) : Option (List (Nat × Heading)) :=
  columns.mapM fun c => (Binder.columnOf? s c.1).map fun found => (found.1, c.2, found.2.2)

lemma Scope.has_of_sameName {s : Scope} {column : String} {h : Heading} (hh : h ∈ s.columns)
    (hname : Text.sameName h.1 column = true) : s.Has column := by
  have hsome : (s.columns.findIdx? fun c => Text.sameName c.1 column).isSome = true := by
    rw [List.findIdx?_isSome]
    exact List.any_eq_true.mpr ⟨h, hh, hname⟩
  obtain ⟨i, hi⟩ := Option.isSome_iff_exists.mp hsome
  obtain ⟨hlength, -⟩ := List.findIdx?_eq_some_iff_getElem.mp hi
  refine ⟨(i, s.columns[i]), ?_⟩
  rw [Binder.columnOf?, hi]
  simp [hlength]

variable {columns : List (String × String)}

namespace Binder

variable {b : Binder} {s : Scope} {os : List Output}

lemma outputs_renaming {places : List (Nat × Heading)} (h : IsRenaming s.name columns os)
    (hplaces : s.rename? columns = some places) : b.outputs [s] os = .ok (places.map shownAt) := by
  induction h generalizing places with
  | nil =>
    cases hplaces
    rw [outputs]
    rfl
  | @cons c o columns os ho _ ih =>
    obtain ⟨title, rfl⟩ := ho
    rw [Scope.rename?, List.mapM_cons] at hplaces
    obtain ⟨place, hplace, hplaces⟩ := Option.bind_eq_some_iff.mp hplaces
    obtain ⟨rest, hrest, hplaces⟩ := Option.bind_eq_some_iff.mp hplaces
    obtain ⟨found, hfound, rfl⟩ := Option.map_eq_some_iff.mp hplace
    cases hplaces
    rw [outputs, output, ih hrest, expr_column, lookup?_own (covers_nil s), hfound]
    rfl

lemma outputs_names {scopes : List Scope} {row : String} {shown : List Shown}
    (h : IsRenaming row columns os) (hshown : b.outputs scopes os = .ok shown) :
    (shown.map fun o => o.heading.1) = columns.map Prod.snd := by
  induction h generalizing shown with
  | nil =>
    rw [outputs] at hshown
    cases hshown
    rfl
  | @cons c o columns os ho _ ih =>
    obtain ⟨title, rfl⟩ := ho
    rw [outputs, output] at hshown
    obtain ⟨first, hfirst, hshown⟩ := bind_eq_ok.mp hshown
    obtain ⟨more, hmore, hshown⟩ := bind_eq_ok.mp hshown
    obtain ⟨⟨bound, a⟩, -, hfirst⟩ := bind_eq_ok.mp hfirst
    cases hshown
    cases hfirst
    rw [List.map_append, ih hmore]
    rfl

lemma exists_distinctNames {taken : List String} {headings : List Heading} {h : Heading}
    (hh : h ∈ headings) : taken.any (Text.sameName h.1) = true ∨
      ∃ g ∈ distinctNames taken headings, Text.sameName g.1 h.1 = true := by
  induction headings generalizing taken with
  | nil => cases hh
  | cons first rest ih =>
    obtain ⟨name, a⟩ := first
    cases htaken : taken.any (Text.sameName h.1) with
    | true => exact .inl rfl
    | false =>
      refine .inr ?_
      rw [distinctNames]
      obtain rfl | hrest := List.mem_cons.mp hh
      · refine ⟨_, List.mem_cons_self, ?_⟩
        rw [freshName_of_not_taken htaken]
        exact Text.sameName_self name
      · -- A name that is taken by the new one is found there.
        generalize freshName taken name (taken.length + 1) 1 = fresh
        have hfound : (fresh :: taken).any (Text.sameName h.1) = true ∨ _ := ih hrest
        obtain hfresh | ⟨g, hg, hname⟩ := hfound
        · rw [List.any_cons, htaken, Bool.or_false] at hfresh
          exact ⟨_, List.mem_cons_self, (Text.sameName_comm _ _).trans hfresh⟩
        · exact ⟨g, List.mem_cons_of_mem _ hg, hname⟩

lemma query_renaming {table label : String} {source : BoundSource} {headings : List Heading}
    {hasRowId : Bool} {places : List (Nat × Heading)}
    (hfind : b.find table = .ok (source, headings, hasRowId)) (hos : IsRenaming label columns os)
    (hplaces : (Scope.mk label headings hasRowId).rename? columns = some places) :
    b.query [] (.select false os (.named table (some label)) (.int 1)) =
      .ok (.select false ((places.map shownAt).map Shown.expr) source (.const (.int 1)),
        places.map Prod.snd) := by
  rw [query, Binder.source, hfind]
  change (b.outputs [⟨label, headings, hasRowId⟩] os >>= _) = _
  rw [outputs_renaming hos hplaces, ok_bind, expr, ok_bind]
  simp only [List.map_map]
  rfl

end Binder

/-! ### The view of a claim over a table -/

namespace Table

variable {t : Table} {k : Claim} {places : List (Nat × Heading)}

/-- The columns of a claim that compiles are at places of the table. -/
lemma exists_rename? (hformed : t.isWellFormed = true)
    (hcolumns : ∀ c ∈ columns, t.shape.hasColumn c.1 = true) :
    ∃ places, (t.scope t.name).rename? columns = some places ∧
      (places.map fun p => p.2.1) = columns.map Prod.snd ∧
      ∀ p ∈ places, p.1 < t.columns.length := by
  induction columns with
  | nil => exact ⟨[], rfl, rfl, by simp⟩
  | cons c rest ih =>
    obtain ⟨hc, hrest⟩ := List.forall_mem_cons.mp hcolumns
    obtain ⟨places, hplaces, hnames, hbound⟩ := ih hrest
    obtain ⟨i, a, hi, hfound⟩ := columnOf?_of_hasColumn hformed hc
    refine ⟨(i, c.2, a) :: places, ?_, ?_, List.forall_mem_cons.mpr ⟨hi, hbound⟩⟩
    · rw [Scope.rename?] at hplaces ⊢
      rw [List.mapM_cons, hfound, hplaces]
      rfl
    · rw [List.map_cons, List.map_cons, hnames]

end Table

namespace Naming

/-- A row of the view of a claim, given the places of the claim's columns. -/
def claimScope (n : Naming) (k : Claim) (places : List (Nat × Heading)) : Scope :=
  ⟨n.claimView k.name, Binder.distinctNames [] (places.map Prod.snd), false⟩

variable {n : Naming} {db : Database} {k : Claim} {table : String} {t : Table}
  {places : List (Nat × Heading)}

lemma find_claimView (hinstalled : db.Installed (n.claimView k.name) (n.claimViewSql k))
    (hsource : k.source = .table table) (ht : db.table? table = some t)
    (hplaces : (t.scope t.name).rename? k.columns = some places) :
    (db.binder true).find (n.claimView k.name) =
      .ok (.query (.select false ((places.map Binder.shownAt).map Binder.Shown.expr)
        (.table t.name) (.const (.int 1))), (n.claimScope k places).columns, false) := by
  obtain ⟨query, rest, hparse, hview⟩ := hinstalled.exists_view
  rcases parse_claimView_table n hsource with ⟨-, _, hcreate, os, rfl, hos⟩ | ⟨-, herror⟩
  · rw [hcreate] at hparse
    have hquery := Binder.query_renaming (b := db.binder true) (Database.find_table ht) hos hplaces
    rw [createView_inj hparse] at hquery
    exact (Database.find_view_eq_ok hinstalled.noTable hview).mpr ⟨_, hquery, rfl⟩
  · rw [herror] at hparse
    cases hparse

/-- The rows of a claim over a table are those of the table. -/
lemma claimRows_table (hinstalled : db.Installed (n.claimView k.name) (n.claimViewSql k))
    (hsource : k.source = .table table) (ht : db.table? table = some t)
    (hplaces : (t.scope t.name).rename? k.columns = some places) (env : Env) :
    (db.binder true).claimRows db env (n.claimView k.name) =
      ⟨t.rows.map fun r => (n.claimScope k places).claimRow (cellsAt places r.frame),
        (n.claimScope k places).affinity "related_id", (n.claimScope k places).affinity⟩ := by
  have hall : ∀ row : List Cell,
      ((BoundExpr.eval db env [row] (.const (.int 1))).truth == some true) = true := fun row => by
    rw [BoundExpr.eval]
    rfl
  rw [Binder.claimRows_eq db env (find_claimView hinstalled hsource ht hplaces),
    BoundSource.rows, BoundQuery.rows_select, Database.rows_table ht,
    List.filter_eq_self.mpr fun row _ => hall row, List.map_map, List.map_map]
  simp only [Function.comp_def, Binder.evalAll_shownAt]
  rfl

lemma principal_claimRow (hplaces : (t.scope t.name).rename? k.columns = some places)
    (frame : List Cell) :
    ((n.claimScope k places).claimRow (cellsAt places frame)).principal =
      (t.scope t.name).cell frame k.principalColumn := by
  rw [Scope.rename?, Claim.columns, List.mapM_cons] at hplaces
  obtain ⟨place, hplace, hplaces⟩ := Option.bind_eq_some_iff.mp hplaces
  obtain ⟨rest, -, hplaces⟩ := Option.bind_eq_some_iff.mp hplaces
  obtain ⟨found, hfound, rfl⟩ := Option.map_eq_some_iff.mp hplace
  cases hplaces
  have hcolumn : Binder.columnOf? (n.claimScope k ((found.1, "principal_id", found.2.2) :: rest))
      "principal_id" = some (0, "principal_id", found.2.2) := by
    rw [Binder.columnOf?, claimScope, List.map_cons, Binder.distinctNames,
      Binder.freshName_of_not_taken rfl, List.findIdx?_cons, Text.sameName_self]
    rfl
  change (n.claimScope k ((found.1, "principal_id", found.2.2) :: rest)).cell _ "principal_id" = _
  rw [Scope.cell, hcolumn, Scope.cell, show Binder.columnOf? _ k.principalColumn = _ from hfound]
  rfl

/-- A lookup of a property that a claim exposes can be bound if the view of the claim can. -/
lemma knows_of_find {found : BoundSource × List Heading × Bool} {l : Lookup}
    (hinstalled : db.Installed (n.claimView k.name) (n.claimViewSql k))
    (hfind : (db.binder true).find (n.claimView k.name) = .ok found) (hclaim : l.claim = k.name)
    (hexposes : ∀ filter, l.property = some filter → k.exposes filter.property = true) :
    (db.binder true).Knows n l := by
  obtain ⟨query, rest, hparse, hview⟩ := hinstalled.exists_view
  obtain ⟨⟨bound, headings⟩, hbound, rfl⟩ :=
    (Database.find_view_eq_ok hinstalled.noTable hview).mp hfind
  rcases parse_claimView n k with ⟨_, _, hcreate, os, source, filter, rfl, hos⟩ | herror
  · rw [hcreate] at hparse
    change (db.binder true).query [] query = _ at hbound
    rw [← createView_inj hparse, Binder.query] at hbound
    obtain ⟨⟨rows, scope⟩, -, hbound⟩ := bind_eq_ok.mp hbound
    obtain ⟨shown, hshown, hbound⟩ := bind_eq_ok.mp hbound
    obtain ⟨⟨_, _⟩, -, hbound⟩ := bind_eq_ok.mp hbound
    cases hbound
    have hnames := Binder.outputs_names hos hshown
    refine ⟨rfl, _, _, _, hclaim ▸ hfind, fun c hc => ?_⟩
    -- The view has a column for each name that a lookup uses.
    have hcolumn : c ∈ shown.map fun o => o.heading.1 := by
      rw [hnames, Claim.columns]
      simp only [List.map_cons, List.map_map, List.mem_cons, Function.comp_def, List.map_id']
      obtain hc | hc := List.mem_append.mp hc
      · simp only [List.mem_cons, List.not_mem_nil, or_false] at hc
        exact hc.elim (fun h => .inr (.inl h)) .inl
      · obtain ⟨filter, hfilter, rfl⟩ := Option.map_eq_some_iff.mp (Option.mem_toList.mp hc)
        exact .inr (.inr (List.contains_iff_mem.mp (hexposes filter hfilter)))
    obtain ⟨o, ho, rfl⟩ := List.mem_map.mp hcolumn
    have hfound : [].any (Text.sameName o.heading.1) = true ∨ _ :=
      Binder.exists_distinctNames (List.mem_map_of_mem ho)
    obtain ⟨g, hg, hname⟩ := hfound.resolve_left nofun
    exact Scope.has_of_sameName hg hname
  · rw [herror] at hparse
    cases hparse

lemma knows_of_installed (hinstalled : db.Installed (n.claimView k.name) (n.claimViewSql k))
    (hsource : k.source = .table table) (ht : db.table? table = some t)
    (hplaces : (t.scope t.name).rename? k.columns = some places) {l : Lookup}
    (hclaim : l.claim = k.name)
    (hexposes : ∀ filter, l.property = some filter → k.exposes filter.property = true) :
    (db.binder true).Knows n l :=
  knows_of_find hinstalled (find_claimView hinstalled hsource ht hplaces) hclaim hexposes

end Naming

/-! ### Claims that are stored -/

lemma Catalog.exists_columns_of_compileClaim {catalog : Catalog} {k : Claim} {table : String}
    (h : catalog.compileClaim k = .ok ()) (hsource : k.source = .table table) :
    ∃ shape, catalog.table? table = some shape ∧
      ∀ c ∈ k.columns, shape.hasColumn c.1 = true := by
  rw [compileClaim, hsource] at h
  obtain ⟨_, -, h⟩ := bind_eq_ok.mp h
  obtain ⟨shape, hshape, h⟩ := bind_eq_ok.mp h
  obtain ⟨_, hprincipal, h⟩ := bind_eq_ok.mp h
  obtain ⟨_, hvalue, hattributes⟩ := bind_eq_ok.mp h
  refine ⟨shape, resolveTable_eq_ok.mp hshape, ?_⟩
  refine List.forall_mem_cons.mpr ⟨resolveColumn_eq_ok.mp hprincipal,
    List.forall_mem_cons.mpr ⟨resolveColumn_eq_ok.mp hvalue, List.forall_mem_map.mpr ?_⟩⟩
  exact resolveColumns_eq_ok.mp hattributes

/-- The table of a stored claim is there, with the columns of the claim. -/
lemma Admin.Sound.exists_source {n : Naming} {ids : Nat → Uuid} {base : Database}
    {clash : String → Prop} {w : Admin.Work} {c : Contents} {k : ClaimRecord} {table : String}
    (h : Sound n ids base clash (fun _ => True) w c)
    (hbase : ∀ t ∈ base.tables, t.isWellFormed = true) (hk : k ∈ c.claims)
    (hsource : k.body.source = .table table) :
    ∃ t, w.db.table? table = some t ∧ t.name ∉ tableNames ∧ t.isWellFormed = true ∧ t.IsFull ∧
      ∀ c ∈ k.body.columns, t.shape.hasColumn c.1 = true := by
  obtain ⟨xs, hrenders, -⟩ := h.registered.served (.claim k) hk trivial
  obtain ⟨shape, hshape, hcolumns⟩ :=
    Catalog.exists_columns_of_compileClaim hrenders.1 hsource
  obtain ⟨t, ht, hname, rfl, huser, hformed, hfull⟩ := h.exists_table hbase hshape
  exact ⟨t, ht, hname ▸ not_mem_tableNames_of_isUserTable huser, hformed, hfull, hcolumns⟩

/-- The view of a claim in force is in the database, unless there was a claim whose name differs
from it in case only. -/
lemma Admin.Reached.installed_claim {n : Naming} {ids : Nat → Uuid} {user : Database}
    {past : List State} {x : State} {k : Claim} (h : Reached n ids user past x)
    (hu : user.IsUnmanaged) (hids : Set.InjOn ids (Set.Iio x.issued)) (hk : k ∈ x.policy.claims)
    (hpast : ¬ Clashed past k.name)
    (htwin : ∀ other ∈ x.policy.claims, Text.sameName other.name k.name = true →
      other.name = k.name) :
    x.db.Installed (n.claimView k.name) (n.claimViewSql k) := by
  obtain ⟨catalog, c, hpolicy, hsound⟩ := h.exists_contents hu hids
  rw [← hpolicy] at hk htwin
  obtain ⟨b, hb, rfl⟩ := List.mem_map.mp hk
  obtain ⟨xs, ⟨-, rfl⟩, hserves⟩ := hsound.registered.served (.claim b) hb trivial
  obtain ⟨a, ha, -, hrendered⟩ := (hserves _).mpr (List.mem_singleton.mpr rfl)
  have hidentifier : a.identifier = n.claimView b.body.name :=
    congrArg Rendered.identifier hrendered
  have htarget : a.target = b.body.name := congrArg Rendered.target hrendered
  have hsql : a.body = .view (n.claimViewSql b.body) := congrArg Rendered.body hrendered
  rw [← hidentifier]
  refine (hsound.registered.views a ha _ hsql).resolve_right ?_
  rintro ⟨-, hclash | ⟨other, hother, hne, hname⟩⟩
  · exact hpast (htarget ▸ hclash)
  · rw [htarget] at hne hname
    exact hne (htwin other.body (List.mem_map_of_mem hother) hname)

end RowPolicy
