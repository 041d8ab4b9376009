import RowPolicy.Proofs.Access.Authorization
import RowPolicy.Proofs.Access.ClaimTables
import RowPolicy.Proofs.Access.Writing
import RowPolicy.Proofs.Admin.Lockstep

/-!
# Memberships of other principals

A lookup only counts the rows of a claim that are the caller's own. So what a principal reads or
fetches stays the same when the memberships of other principals change.
-/

namespace RowPolicy

open Sql Naming Store

/-! ### Lookups of conditions -/

namespace Fragment

variable {P : Lookup → Prop} {w w' : Surroundings} {row : RowValues}

mutual

def EachLookup (P : Lookup → Prop) : Fragment → Prop
  | .inClaim _ lookup => P lookup
  | .all children => EachLookups P children
  | .any children => EachLookups P children
  | _ => True

def EachLookups (P : Lookup → Prop) : List Fragment → Prop
  | [] => True
  | f :: rest => EachLookup P f ∧ EachLookups P rest

end

lemma eachLookups_iff {fs : List Fragment} : EachLookups P fs ↔ ∀ f ∈ fs, f.EachLookup P := by
  induction fs with
  | nil => simp [EachLookups]
  | cons f rest ih => rw [EachLookups, ih, List.forall_mem_cons]

end Fragment

/-- A lookup finds the same related ids, in any order. -/
structure Surroundings.Agrees (w w' : Surroundings) (l : Lookup) : Prop where
  related : (w.claims l.claim).related = (w'.claims l.claim).related
  relatedIds : (w.relatedIds l).Perm (w'.relatedIds l)

lemma Cell.among_perm {a : Affinity} {x : Cell} {ys ys' : List Cell} (h : ys.Perm ys') :
    among a x ys = among a x ys' := by
  unfold among
  rw [h.isEmpty_eq, h.any_eq, h.any_eq]

namespace Fragment

variable {w w' : Surroundings} {row : RowValues}

mutual

/-- The truth value of a condition depends on the caller and on what the lookups find. -/
lemma truth_congr (hprincipal : w.principal = w'.principal) {f : Fragment}
    (h : f.EachLookup (w.Agrees w')) : f.truth w row = f.truth w' row := by
  match f with
  | .always | .never | .literalEq _ _ => rfl
  | .principalEq column =>
    rw [truth, truth, Surroundings.isCaller, Surroundings.isCaller, hprincipal]
  | .inClaim column lookup =>
    obtain ⟨hrelated, hids⟩ := h
    rw [truth, truth, hrelated, Cell.among_perm hids]
  | .all children => rw [truth, truth, (truths_congr hprincipal h).1]
  | .any children => rw [truth, truth, (truths_congr hprincipal h).2]

lemma truths_congr (hprincipal : w.principal = w'.principal) {fs : List Fragment}
    (h : EachLookups (w.Agrees w') fs) :
    truthOfAll w row fs = truthOfAll w' row fs ∧ truthOfAny w row fs = truthOfAny w' row fs := by
  match fs with
  | [] => exact ⟨rfl, rfl⟩
  | f :: rest =>
    obtain ⟨hall, hany⟩ := truths_congr hprincipal h.2
    rw [truthOfAll, truthOfAll, truthOfAny, truthOfAny, truth_congr hprincipal h.1, hall, hany]
    exact ⟨rfl, rfl⟩

end

end Fragment

namespace Predicate

variable {P : Lookup → Prop}

mutual

lemma lowered_eachLookup {p : Predicate} :
    p.lowered.EachLookup P ↔ ∀ l ∈ p.lookups, P l := by
  match p with
  | .literalEq _ _ | .identityEq _ => simp [lowered, lookups, Fragment.EachLookup]
  | .membership _ _ | .propertyCheck _ _ _ _ => simp [lowered, lookups, Fragment.EachLookup]
  | .and children | .or children =>
    rw [lowered, lookups, ← loweredAll_eachLookup]
    exact Catalog.collapse_iff fun _ => Fragment.eachLookups_iff

lemma loweredAll_eachLookup {ps : List Predicate} :
    (∀ f ∈ loweredAll ps, f.EachLookup P) ↔ ∀ l ∈ lookupsOfAll ps, P l := by
  match ps with
  | [] => simp [loweredAll, lookupsOfAll]
  | p :: rest =>
    rw [loweredAll, lookupsOfAll, List.forall_mem_cons, List.forall_mem_append,
      lowered_eachLookup, loweredAll_eachLookup]

end

end Predicate

lemma Rule.filter_eachLookup {P : Lookup → Prop} {r : Rule} :
    (r.filter .always).EachLookup P ↔ ∀ l ∈ r.lookups, P l := by
  unfold filter lookups
  cases r.predicate with
  | none => simp [Fragment.EachLookup]
  | some p => exact Predicate.lowered_eachLookup

/-! ### The caller's own rows -/

/-- The rows of a table that have a caller's id in a column, as text. -/
def Table.rowsOf (t : Table) (column : String) (p : Principal) : List (List Cell) :=
  (t.rows.filter fun r => p.id.any fun id =>
    ((t.values r).cell column).castText == .text id).map Row.cells

namespace Surroundings

variable {w w' : Surroundings} {l : Lookup}

lemma admits_congr (hprincipal : w.principal = w'.principal)
    (hproperty : (w.claims l.claim).property = (w'.claims l.claim).property) :
    w.admits l = w'.admits l := by
  funext k
  unfold admits isCaller
  rw [hprincipal, hproperty]

/-- A lookup only looks at the caller's own rows. -/
lemma isId_of_admits {k : ClaimRow} (h : w.admits l k = some true) : w.IsId k.principal := by
  unfold admits at h
  cases hproperty : l.property with
  | none =>
    rw [hproperty] at h
    exact isCaller_eq_true.mp h
  | some filter =>
    rw [hproperty] at h
    exact isCaller_eq_true.mp (Truth.and_eq_true.mp h).1

end Surroundings

lemma cellsAt_append {places : List (Nat × Heading)} {cells more : List Cell}
    (h : ∀ p ∈ places, p.1 < cells.length) :
    cellsAt places (cells ++ more) = cellsAt places cells :=
  List.map_congr_left fun p hp => by
    rw [List.getD_eq_getElem?_getD, List.getD_eq_getElem?_getD, List.getElem?_append_left (h p hp)]

lemma Table.scope_eq {t t' : Table} (h : t'.schema = t.schema) :
    t'.scope t'.name = t.scope t.name := by
  have hscope : t'.schema.scope t'.schema.name = t.schema.scope t.schema.name :=
    congrArg (fun u : Table => u.scope u.name) h
  exact hscope

lemma Admin.RowsWritten.table?_schema {db db' : Database} (h : RowsWritten db db')
    (name : String) : (db'.table? name).map Table.schema = (db.table? name).map Table.schema := by
  rw [← Database.table?_schema, h.schema, Database.table?_schema]

lemma Database.Installed.of_schema {db db' : Database} {identifier sql : String}
    (h : db.Installed identifier sql) (hschema : db'.schema = db.schema) :
    db'.Installed identifier sql :=
  h.congr (congrArg Database.tables hschema) (by
    rw [← db'.view?_schema, hschema, db.view?_schema])

namespace Naming

variable {n : Naming} {k : Claim} {t : Table} {places : List (Nat × Heading)} {l : Lookup}
  {w : Surroundings}

/-- What a lookup finds in a claim over a table is found in the caller's own rows of the table. -/
lemma relatedIds_eq (principal : Principal) (hprincipal : w.principal = principal.id)
    (hrows : (w.claims l.claim).rows =
      t.rows.map fun r => (n.claimScope k places).claimRow (cellsAt places r.frame))
    (hplaces : (t.scope t.name).rename? k.columns = some places)
    (hbound : ∀ p ∈ places, p.1 < t.columns.length) (hfull : t.IsFull) :
    w.relatedIds l = (((t.rowsOf k.principalColumn principal).map fun cells =>
      (n.claimScope k places).claimRow (cellsAt places cells)).filter fun k =>
        w.admits l k == some true).map ClaimRow.related := by
  have hcells : ∀ r ∈ t.rows, cellsAt places r.frame = cellsAt places r.cells := fun r hr =>
    cellsAt_append fun p hp => hfull r hr ▸ hbound p hp
  have hown : ∀ r ∈ t.rows, (w.admits l ((n.claimScope k places).claimRow
      (cellsAt places r.cells)) == some true) = true → (principal.id.any fun id =>
        ((t.values r).cell k.principalColumn).castText == .text id) = true := by
    intro r hr hadmits
    obtain ⟨id, hid, htext⟩ := Surroundings.isId_of_admits (beq_iff_eq.mp hadmits)
    rw [← hcells r hr, principal_claimRow hplaces] at htext
    rw [← hprincipal, hid]
    exact beq_iff_eq.mpr htext
  have hrows' : (w.claims l.claim).rows =
      t.rows.map fun r => (n.claimScope k places).claimRow (cellsAt places r.cells) :=
    hrows.trans (List.map_congr_left fun r hr => by rw [hcells r hr])
  rw [Surroundings.relatedIds, hrows', Table.rowsOf, List.map_map, List.filter_map, List.filter_map,
    List.filter_filter]
  simp only [Function.comp_def]
  rw [List.filter_congr fun r hr => ?_]
  cases hadmits : w.admits l ((n.claimScope k places).claimRow (cellsAt places r.cells)) ==
      some true with
  | false => rw [Bool.false_and]
  | true => rw [hown r hr hadmits, Bool.true_and]

/-- A lookup finds the same in two databases in which the caller's own rows of the claim's table are
the same. -/
lemma agrees_of_rowsOf {db db' : Database} {table : String} {t' : Table} {env env' : Env}
    (hschema : db'.schema = db.schema) (hcaller : env'.principal = env.principal)
    (hinstalled : db.Installed (n.claimView k.name) (n.claimViewSql k))
    (hsource : k.source = .table table) (ht : db.table? table = some t)
    (ht' : db'.table? table = some t') (hformed : t.isWellFormed = true)
    (hcolumns : ∀ c ∈ k.columns, t.shape.hasColumn c.1 = true) (hfull : t.IsFull)
    (hfull' : t'.IsFull) (hclaim : l.claim = k.name)
    (hrows : (t.rowsOf k.principalColumn ⟨env.principal⟩).Perm
      (t'.rowsOf k.principalColumn ⟨env.principal⟩)) :
    ((db.binder true).surroundings db env n).Agrees
      ((db'.binder true).surroundings db' env' n) l := by
  obtain ⟨places, hplaces, -, hbound⟩ := Table.exists_rename? hformed hcolumns
  have htable : t'.schema = t.schema := by
    have hfound := db.table?_schema table
    have hfound' := db'.table?_schema table
    rw [hschema, ht', Option.map_some] at hfound'
    rw [ht, Option.map_some, hfound'] at hfound
    exact Option.some.inj hfound
  have hplaces' : (t'.scope t'.name).rename? k.columns = some places := by
    rw [Table.scope_eq htable, hplaces]
  have hbound' : ∀ p ∈ places, p.1 < t'.columns.length := by
    rw [Table.columns_of_schema htable]
    exact hbound
  have hinstalled' := hinstalled.of_schema hschema
  have hclaims : ((db.binder true).surroundings db env n).claims l.claim = _ :=
    hclaim ▸ claimRows_table hinstalled hsource ht hplaces env
  have hclaims' : ((db'.binder true).surroundings db' env' n).claims l.claim = _ :=
    hclaim ▸ claimRows_table hinstalled' hsource ht' hplaces' env'
  have hadmits : ((db.binder true).surroundings db env n).admits l =
      ((db'.binder true).surroundings db' env' n).admits l :=
    Surroundings.admits_congr hcaller.symm (by rw [hclaims, hclaims'])
  refine ⟨by rw [hclaims, hclaims'], ?_⟩
  rw [relatedIds_eq ⟨env.principal⟩ rfl (by rw [hclaims]) hplaces hbound hfull,
    relatedIds_eq ⟨env.principal⟩ hcaller (by rw [hclaims']) hplaces' hbound' hfull', hadmits]
  exact ((hrows.map _).filter _).map _

end Naming

/-! ### Requests over two databases -/

namespace Database

variable {db db' : Database}

/-- Over databases with the same tables and views, a query fails in the same way or shows the same
columns. -/
lemma select_cases (hschema : db'.schema = db.schema) (env : Env) (sql : String) :
    (∃ e, db.select true env sql = .error e ∧ db'.select true env sql = .error e) ∨
      ∃ names rows rows', db.select true env sql = .ok (names, rows) ∧
        db'.select true env sql = .ok (names, rows') := by
  rw [select, select, prepare_congr hschema]
  cases db.prepare true sql with
  | error e => exact .inl ⟨e, rfl, rfl⟩
  | ok p =>
    rw [ok_bind, ok_bind]
    cases checkParams p env with
    | error e => exact .inl ⟨e, rfl, rfl⟩
    | ok _ =>
      rw [ok_bind, ok_bind]
      cases p.statement with
      | query q names => exact .inr ⟨names, _, _, rfl, rfl⟩
      | _ => exact .inr ⟨[], [], [], rfl, rfl⟩

end Database

namespace Request

variable {q : Request} {db db' : Database} {n : Naming} {t : Table} {params : Json.Fields}

lemma holds_congr {c : Check} {x : Cell} (hschema : db'.schema = db.schema)
    (hfinite : c.fragment.IsFinite)
    (htruth : ∀ row, c.fragment.truth ((db.binder true).surroundings db (q.env [x]) n) row =
      c.fragment.truth ((db'.binder true).surroundings db' (q.env [x]) n) row) :
    q.holds db (n.renderCheck c).sql [x] = q.holds db' (n.renderCheck c).sql [x] := by
  have hsame : db.select true (q.env [x]) (n.renderCheck c).sql =
      db'.select true (q.env [x]) (n.renderCheck c).sql := by
    obtain ⟨e, he, he'⟩ | ⟨names, rows, rows', hrows, hrows'⟩ :=
      Database.select_cases hschema (q.env [x]) (n.renderCheck c).sql
    · rw [he, he']
    · rcases parse_check n hfinite with ⟨-, _, hparse, e, title, inner, rfl, he⟩ | ⟨-, herror⟩
      · obtain ⟨bound, headings, hbound, -, -, rfl⟩ := (Database.select_eq_ok hparse).mp hrows
        obtain ⟨bound', headings', hbound', -, -, rfl⟩ := (Database.select_eq_ok hparse).mp hrows'
        have hresult := (Binder.query_check db he hbound).2 x q.principal.id
        have hresult' := (Binder.query_check db' he hbound').2 x q.principal.id
        rw [hrows, hrows']
        refine congrArg (fun rows => Except.ok (names, rows)) ?_
        refine hresult.trans (Eq.trans ?_ hresult'.symm)
        exact congrArg (fun truth => [[Truth.toCell truth]]) (htruth _)
      · exact absurd hrows (Database.select_error herror)
  rw [holds, holds, hsame]

lemma checkAll_congr {checks : List RenderedCheck}
    (h : ∀ c ∈ checks, ∀ x, q.holds db c.sql [x] = q.holds db' c.sql [x]) :
    q.checkAll db params checks = q.checkAll db' params checks := by
  induction checks with
  | nil => rfl
  | cons c rest ih =>
    obtain ⟨hc, hrest⟩ := List.forall_mem_cons.mp h
    rw [checkAll, checkAll, ih hrest]
    simp only [hc]

/-- The query of an accessor only looks at its table. -/
lemma select_accessor_congr {a : Accessor} {cells : List Cell} {given : String → Cell}
    (hschema : db'.schema = db.schema) (hfinite : ∀ c ∈ a.conditions, c.fragment.IsFinite)
    (ht : db.table? a.table = some t) (ht' : db'.table? a.table = some t)
    (hgiven : ∀ i c, a.parameters[i]? = some c → cells.getD i .null = given c) :
    q.select db (n.accessorQuery a) cells = q.select db' (n.accessorQuery a) cells := by
  obtain ⟨e, he, he'⟩ | ⟨names, rows, rows', hrows, hrows'⟩ :=
    Database.select_cases hschema (q.env cells) (n.accessorQuery a)
  · rw [select, select, he, he']
  · have hselect := Request.select_eq_ok.mpr ⟨names, rows, hrows, rfl⟩
    have hselect' := Request.select_eq_ok.mpr ⟨names, rows', hrows', rfl⟩
    rcases parse_accessorQuery n fun column value hc => hfinite _ hc with
      ⟨-, _, hparse, os, rfl, hos⟩ | ⟨-, herror⟩
    · rw [hselect, hselect', (select_accessor ht hparse hos hgiven hselect).2.2,
        (select_accessor ht' hparse hos hgiven hselect').2.2]
    · exact absurd hrows (Database.select_error herror)

end Request

/-! ### The same policy -/

lemma Store.findArtifact_congr {db db' : Database}
    (h : db'.table? artifactTable.name = db.table? artifactTable.name) (kind : ArtifactKind)
    (target : String) (operation : Option Operation) :
    findArtifact db' kind target operation = findArtifact db kind target operation := by
  rw [findArtifact, findArtifact, Store.table, Store.table, h]

namespace Naming.Serves

variable {n : Naming} {q : Request} {db db' : Database} {r d : Rule} {t : Table}

lemma congr {t' : Table} (h : n.Serves db r d t) (hwritten : Admin.RowsWritten db db')
    (ht : db'.table? r.table = some t') : n.Serves db' r d t' := by
  have hfind := Store.findArtifact_congr (hwritten.store artifactTable.name (by decide))
  have hschema : t'.schema = t.schema := by
    have hfound := hwritten.table?_schema r.table
    rw [ht, h.table] at hfound
    exact Option.some.inj hfound
  have hname : t'.name = r.table := (Database.name_of_schema hschema).trans h.name
  have hshape : t'.shape = t.shape := Table.shape_eq hschema
  exact {
    same := h.same
    validated := h.validated
    distinct := h.distinct.congr (congrArg Database.tables hwritten.schema)
    table := ht
    name := hname
    isUser := h.isUser
    wellFormed := (Table.isWellFormed_eq hschema).trans h.wellFormed
    full := hwritten.full t' (List.mem_of_find?_eq_some ht)
      (hname ▸ Admin.not_mem_tableNames_of_isUserTable h.isUser)
    resolves := hshape ▸ h.resolves
    artifacts := by
      obtain ⟨plan, hplan, hkinds⟩ := h.artifacts
      exact ⟨plan, hshape ▸ hplan, fun kind => by rw [hfind]; exact hkinds kind⟩
    installed := fun a sql ha hsql => by
      rw [hfind] at ha
      exact (h.installed a sql ha hsql).of_schema hwritten.schema
    closed := by
      have hviews : db'.schema.views = db.schema.views := congrArg Database.views hwritten.schema
      exact hviews ▸ h.closed }

lemma read_congr (h : n.Serves db r d t) (h' : n.Serves db' r d t)
    (hschema : db'.schema = db.schema) (hcolumns : t.columns ≠ []) (hready : q.ready = true)
    (hq : q.table = r.table) (hread : r.operation = .read)
    (hresolves : (d.filter .always).Resolves (db.binder true) n (t.scope t.name))
    (hagrees : ∀ l ∈ d.lookups, ((db.binder true).surroundings db (q.env []) n).Agrees
      ((db'.binder true).surroundings db' (q.env []) n) l) :
    ∃ records, q.read db = .ok records ∧ q.read db' = .ok records := by
  have hserves := h.servesRead hcolumns hready hq hread
  have hserves' := h'.servesRead hcolumns hready hq hread
  have hresolves' : (d.filter .always).Resolves (db'.binder true) n (t.scope t.name) := by
    rwa [Database.binder_congr hschema]
  refine ⟨_, hserves.read_eq hresolves, ?_⟩
  rw [hserves'.read_eq hresolves']
  have htruth : ∀ row,
      (d.filter .always).truth ((db.binder true).surroundings db (q.env []) n) row =
      (d.filter .always).truth ((db'.binder true).surroundings db' (q.env []) n) row := fun row =>
    Fragment.truth_congr (by rfl) (Rule.filter_eachLookup.mpr hagrees)
  simp only [htruth]

/-- A fetch has the same result if every lookup finds the same. -/
lemma fetch_congr (h : n.Serves db r d t) (h' : n.Serves db' r d t)
    (hwritten : Admin.RowsWritten db db') (hcolumns : t.columns ≠ []) (hready : q.ready = true)
    (hq : q.table = r.table) (hread : r.operation = .read)
    (hagrees : ∀ cells, ∀ l ∈ d.lookups, ((db.binder true).surroundings db (q.env cells) n).Agrees
      ((db'.binder true).surroundings db' (q.env cells) n) l) (params : Json.Fields) :
    q.fetch db params = q.fetch db' params := by
  have hartifact : ∀ kind, q.artifact db' kind .read = q.artifact db kind .read := fun kind => by
    rw [Request.artifact, Request.artifact,
      Store.findArtifact_congr (hwritten.store artifactTable.name (by decide))]
  obtain ⟨f, -, hnone⟩ | ⟨a, record, ha, hrecord, hbody⟩ := h.accessor_cases hready hq hread
  · rw [Request.fetch, Request.fetch, hartifact, hartifact, hnone]
    rfl
  rw [renderAccessor] at hbody
  have hserves := h.servesFetch hcolumns hready hq hread ha
  obtain ⟨htable, -⟩ := Rule.accessor_eq_ok ha
  have ht : db.table? a.table = some t := htable ▸ hserves.table_name
  have ht' : db'.table? a.table = some t :=
    htable ▸ (h'.servesFetch hcolumns hready hq hread ha).table_name
  -- A check looks at the value that is given and at claims, not at the table.
  have hholds : ∀ c ∈ a.checks, ∀ x, q.holds db (n.renderCheck c).sql [x] =
      q.holds db' (n.renderCheck c).sql [x] := fun c hc x => by
    have hcondition := Accessor.mem_checks.mp hc
    refine Request.holds_congr hwritten.schema (hserves.condition_isFinite hcondition) fun row => ?_
    refine Fragment.truth_congr (by rfl) ?_
    exact (Rule.filter_iff (fun _ => Fragment.eachLookups_iff) trivial ha).mp
      (Rule.filter_eachLookup.mpr (hagrees [x])) _ hcondition
  rw [Request.fetch_eq_of_artifact hrecord hbody,
    Request.fetch_eq_of_artifact (hartifact .readAccessor ▸ hrecord) hbody,
    Request.checkAll_congr (List.forall_mem_map.mpr hholds)]
  refine congrArg (_ >>= ·) (funext fun _ => ?_)
  cases hcells : a.parameters.mapM (q.param params) with
  | error e => rw [error_bind, error_bind]
  | ok cells =>
    rw [ok_bind, ok_bind]
    exact Request.select_accessor_congr hwritten.schema (fun c hc => hserves.condition_isFinite hc)
      ht ht' (Request.mapM_param_eq_ok hcells)

end Naming.Serves

namespace Admin

variable {n : Naming} {ids : Nat → Uuid} {user : Database} {past : List State} {x : State}

/-- Changing rows of a table that is not of the store writes rows beside it. -/
lemma Reached.rowsWritten_setTable {name : String} {t t' : Table} (h : Reached n ids user past x)
    (hu : user.IsUnmanaged) (hids : Set.InjOn ids (Set.Iio x.issued))
    (ht : x.db.table? name = some t) (hexact : t.name = name) (huser : name ∉ tableNames)
    (hchanges : t.Changes t') : RowsWritten x.db (x.db.setTable t') := by
  obtain ⟨catalog, c, -, hsound⟩ := h.exists_contents hu hids
  exact Admin.rowsWritten_setTable hsound.defined.stored hsound.defined.full ht hexact huser
    hchanges

/-- Over a claim over a table, a lookup of a rule can be bound, and it finds the same in two
databases in which the caller's own rows of that table are the same. -/
lemma Sound.lookup_agrees {base db' : Database} {clash : String → Prop} {w : Work} {c : Contents}
    {k : ClaimRecord} {table : String} {l : Lookup} {principal : Principal}
    (h : Sound n ids base clash (fun _ => True) w c)
    (hbase : ∀ t ∈ base.tables, t.isWellFormed = true) (hwritten : RowsWritten w.db db')
    (hk : k ∈ c.claims) (hclaim : l.claim = k.body.name) (hfinds : w.catalog.Finds l)
    (hsource : k.body.source = .table table)
    (hinstalled : w.db.Installed (n.claimView k.body.name) (n.claimViewSql k.body))
    (hrows : ∀ t t', w.db.table? table = some t → db'.table? table = some t' →
      (t.rowsOf k.body.principalColumn principal).Perm
        (t'.rowsOf k.body.principalColumn principal)) :
    (w.db.binder true).Knows n l ∧ ∀ cells,
      ((w.db.binder true).surroundings w.db ⟨cells, principal.id⟩ n).Agrees
        ((db'.binder true).surroundings db' ⟨cells, principal.id⟩ n) l := by
  obtain ⟨t, ht, huser, hformed, hfull, hcolumns⟩ := h.exists_source hbase hk hsource
  obtain ⟨places, hplaces, -, -⟩ := Table.exists_rename? hformed hcolumns
  have hfound := hwritten.table?_schema table
  rw [ht] at hfound
  obtain ⟨t', ht', hschema⟩ := Option.map_eq_some_iff.mp hfound
  have hfull' : t'.IsFull := hwritten.full t' (List.mem_of_find?_eq_some ht')
    (Database.name_of_schema hschema ▸ huser)
  refine ⟨knows_of_installed hinstalled hsource ht hplaces hclaim fun filter hfilter => ?_,
    fun cells => ?_⟩
  · obtain ⟨claim, hfound, hexposes⟩ := hfinds
    rw [hclaim, h.defined.catalog.claims k hk] at hfound
    cases hfound
    exact hexposes filter hfilter
  · exact agrees_of_rowsOf hwritten.schema rfl hinstalled hsource ht ht' hformed hcolumns hfull
      hfull' hclaim (hrows t t' ht ht')

/-- What a principal reads and fetches does not depend on the memberships of other principals. It is
the same in two databases with one policy that have the same rows in the table of the rule and, for
each claim of the rule, the same rows of the principal in the table of the claim. -/
theorem same_answers_of_rowsOf {r : Rule} {db' : Database} (hu : user.IsUnmanaged)
    (hcolumns : ∀ t ∈ user.tables, t.columns ≠ []) (h : Reached n ids user past x)
    (hids : Set.InjOn ids (Set.Iio x.issued)) (hr : r ∈ x.policy.rules)
    (hread : r.operation = .read) (hwritten : RowsWritten x.db db')
    (htable : db'.table? r.table = x.db.table? r.table) (principal : Principal)
    (hclaims : ∀ name, r.references name = true → ∃ k table, k ∈ x.policy.claims ∧ k.name = name ∧
      k.source = .table table ∧ x.db.Installed (n.claimView name) (n.claimViewSql k) ∧
      ∀ t t', x.db.table? table = some t → db'.table? table = some t' →
        (t.rowsOf k.principalColumn principal).Perm (t'.rowsOf k.principalColumn principal))
    (client : Client) (busy : Bool) :
    let q := client.ask x.db principal r.table busy
    let q' := client.ask db' principal r.table busy
    (∃ records, q.read x.db = .ok records ∧ q'.read db' = .ok records) ∧
      ∀ params, q.fetch x.db params = q'.fetch db' params := by
  intro q q'
  obtain ⟨catalog, c, hpolicy, hsound⟩ := h.exists_contents hu hids
  rw [← hpolicy] at hr hclaims
  obtain ⟨b, hb, rfl⟩ := List.mem_map.mp hr
  obtain ⟨d, t, hserves, hresolves⟩ := hsound.exists_serves hu.wellFormed_managed hb
  have hserves' := hserves.congr hwritten (htable.trans hserves.table)
  -- Each lookup of the rule is of a claim over a table, with the same own rows.
  have hlookups : ∀ l ∈ d.lookups, (x.db.binder true).Knows n l ∧ ∀ cells,
      ((x.db.binder true).surroundings x.db (q.env cells) n).Agrees
        ((db'.binder true).surroundings db' (q.env cells) n) l := by
    intro l hl
    have hreferences : b.body.references l.claim = true := by
      have hd : d.references l.claim = true := Rule.references_iff.mpr ⟨l, hl, rfl⟩
      obtain rfl | rfl := hserves.same
      · exact hd
      · rwa [Rule.references_reread] at hd
    obtain ⟨k, table, hk, hname, hsource, hinstalled, hrows⟩ := hclaims l.claim hreferences
    obtain ⟨record, hrecord, rfl⟩ := List.mem_map.mp hk
    exact hsound.lookup_agrees hu.wellFormed_managed hwritten hrecord hname.symm
      (Rule.finds_of_resolves hresolves l hl) hsource (hname ▸ hinstalled) hrows
  have hfilled := h.columns_ne_nil hu hcolumns hids hserves
  have hready := h.ask_ready hu hids client principal b.body.table busy
  have hsame : q' = q := by
    have hready' := (h.write hwritten).ask_ready hu hids client principal b.body.table busy
    change Request.mk _ _ q'.ready _ = Request.mk _ _ q.ready _
    rw [hready, hready']
  rw [hsame]
  refine ⟨hserves.read_congr hserves' hwritten.schema hfilled hready rfl hread ?_ fun l hl =>
    (hlookups l hl).2 [], hserves.fetch_congr hserves' hwritten hfilled hready rfl hread
      fun cells l hl => (hlookups l hl).2 cells⟩
  exact (Rule.filter_resolves hserves.wellFormed rfl hresolves).mpr fun l hl => (hlookups l hl).1

/-- The database after another principal has moved to another team and a third one has joined it. -/
def rosterMoved : Database :=
  rosterState.db.setTable
    (rosterTable [⟨2, [.text "bob", .text "blue"]⟩, ⟨3, [.text "eve", .text "blue"]⟩])

lemma rosterMoved_work : rosterMoved.table? "d" = rosterState.db.table? "d" := by
  unfold rosterMoved
  rw [rosterState_work]
  exact Database.table?_setTable_of_ne rosterState_work (by decide)

lemma rosterMoved_members : rosterMoved.table? "m" = some
    (rosterTable [⟨2, [.text "bob", .text "blue"]⟩, ⟨3, [.text "eve", .text "blue"]⟩]) := by
  unfold rosterMoved
  exact Database.table?_setTable_of_name rosterState_members rfl

lemma rosterMoved_written : RowsWritten rosterState.db rosterMoved := by
  unfold rosterMoved
  exact rosterState_reached.rowsWritten_setTable roster_isUnmanaged rosterState_ids
    rosterState_members rfl (by decide) ⟨rfl, fun _ => by decide⟩

/-- A principal reads and fetches the same work after others have moved to other teams. -/
theorem same_answers_of_rowsOf_roster : roster.IsUnmanaged ∧
    RowsWritten rosterState.db rosterMoved ∧
    rosterMoved.table? "m" ≠ rosterState.db.table? "m" ∧
    let q := Client.ask ⟨false, 0⟩ rosterState.db (.user "alice") "d" false
    let q' := Client.ask ⟨false, 0⟩ rosterMoved (.user "alice") "d" false
    (∃ records, q.read rosterState.db = .ok records ∧ q'.read rosterMoved = .ok records) ∧
      ∀ params, q.fetch rosterState.db params = q'.fetch rosterMoved params := by
  refine ⟨roster_isUnmanaged, rosterMoved_written, ?_, same_answers_of_rowsOf roster_isUnmanaged
    (by decide) rosterState_reached rosterState_ids (r := rosterRead) ?_ rfl rosterMoved_written
    rosterMoved_work (.user "alice") (fun name hname => ?_) ⟨false, 0⟩ false⟩
  · rw [rosterState_members, rosterMoved_members]
    decide
  · rw [rosterState_policy]
    exact List.mem_cons_self
  · obtain rfl : name = "k" := by
      simpa [rosterRead, Rule.references, Predicate.claimList] using hname
    refine ⟨teams, "m", ?_, rfl, rfl, rosterState_installed, fun t t' ht ht' => ?_⟩
    · rw [rosterState_policy]
      exact List.mem_cons_self
    · rw [rosterState_members] at ht
      rw [rosterMoved_members] at ht'
      cases ht
      cases ht'
      decide

end Admin

end RowPolicy
