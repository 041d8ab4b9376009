import RowPolicy.Proofs.Access.Sessions
import RowPolicy.Proofs.Sql.Restriction

/-!
# Anonymous callers

No identity, membership or property is ever true of a caller without an id, and there is no negation
in a condition. So whatever an anonymous caller may read or create, everyone may, with the same
result; the same goes for updates and deletions wherever a key belongs to one row at most.
-/

namespace RowPolicy

open Sql Naming

/-! ### Conditions -/

section

variable {w w' : Surroundings} {row : RowValues}

lemma Surroundings.not_isId (hw : w.principal = none) (x : Cell) : ¬ w.IsId x := by
  rintro ⟨id, hid, -⟩
  rw [hw] at hid
  cases hid

/-- No check is passed by an anonymous caller. -/
lemma Check.not_isTrue (hw : w.principal = none) (c : Check) : ¬ c.fragment.IsTrue w row := by
  unfold fragment
  cases c.kind with
  | principal => exact fun h => Surroundings.not_isId hw _ (Fragment.principalEq_isTrue.mp h)
  | member lookup =>
    intro h
    obtain ⟨k, -, hid, -⟩ := Fragment.inClaim_isTrue.mp h
    exact Surroundings.not_isId hw _ hid

namespace Fragment

mutual

/-- What is true for an anonymous caller is true for everyone, whatever the claims hold. -/
lemma isTrue_of_anonymous (hw : w.principal = none) {f : Fragment} (h : f.IsTrue w row) :
    f.IsTrue w' row := by
  match f with
  | .always => rfl
  | .never => cases h
  | .literalEq column value => exact h
  | .principalEq column => exact absurd h (Check.not_isTrue hw ⟨column, .principal⟩)
  | .inClaim column lookup => exact absurd h (Check.not_isTrue hw ⟨column, .member lookup⟩)
  | .all children =>
    have hall := truthOfAll_eq_true.mp h
    exact truthOfAll_eq_true.mpr fun f hf => areTrue_of_anonymous hw children f hf (hall f hf)
  | .any children =>
    obtain ⟨f, hf, htrue⟩ := truthOfAny_eq_true.mp h
    exact truthOfAny_eq_true.mpr ⟨f, hf, areTrue_of_anonymous hw children f hf htrue⟩

lemma areTrue_of_anonymous (hw : w.principal = none) (fs : List Fragment) :
    ∀ f ∈ fs, f.IsTrue w row → f.IsTrue w' row := by
  match fs with
  | [] => simp
  | f :: rest =>
    exact List.forall_mem_cons.mpr ⟨isTrue_of_anonymous hw, areTrue_of_anonymous hw rest⟩

end

end Fragment

end

/-! ### Requests of another caller -/

namespace Request

def as (q : Request) (p : Principal) : Request := { q with principal := p }

variable {q : Request} {p : Principal} {db db' : Database}

lemma execute_as {sql : String} {params : List Cell} {result : Database × Database.Effect}
    (hrun : ∀ prepared, db.prepare true sql = .ok prepared →
      db.run (q.env params) prepared.statement = .ok result →
      db.run ((q.as p).env params) prepared.statement = .ok result)
    (h : q.execute db sql params = .ok result) : (q.as p).execute db sql params = .ok result := by
  rw [execute] at h ⊢
  obtain ⟨prepared, hprepared, h⟩ := bind_eq_ok.mp h
  obtain ⟨_, hparams, h⟩ := bind_eq_ok.mp h
  refine bind_eq_ok.mpr ⟨prepared, hprepared, bind_eq_ok.mpr ⟨(), hparams, ?_⟩⟩
  split at h
  next => cases h
  next hbusy =>
    rw [if_neg (show ¬ (q.as p).busy = true from hbusy)]
    exact ofStorage_eq_ok.mpr
      (hrun prepared (ofStorage_eq_ok.mp hprepared) (ofStorage_eq_ok.mp h))

/-! ### Creates -/

lemma insertRow_as {columns : List String} {row : Json.Fields}
    {result : Database × Database.Effect} (h : q.insertRow db columns row = .ok result) :
    (q.as p).insertRow db columns row = .ok result := by
  rw [insertRow] at h ⊢
  obtain ⟨_, hcolumns, h⟩ := bind_eq_ok.mp h
  obtain ⟨cells, hcells, h⟩ := bind_eq_ok.mp h
  refine bind_eq_ok.mpr ⟨(), hcolumns, bind_eq_ok.mpr ⟨cells, hcells, ?_⟩⟩
  change (q.as p).execute db (Sql.insert q.table (row.map (·.1))) cells = _
  refine execute_as (fun prepared hprepared hrun => ?_) h
  have hinsert := parse_insert q.table (row.map (·.1))
  obtain ⟨_, bound, rfl, -, hbound, hp⟩ := Database.prepare_parsesAs hinsert hprepared
  obtain ⟨t, targets, rows, -, rfl, hrows⟩ := Database.bindStatement_insert hbound
  rw [hp, Database.run.eq_def] at hrun ⊢
  cases rows with
  | none => exact hrun
  | some given =>
    dsimp only at hrun ⊢
    rw [hrows given rfl] at hrun ⊢
    exact hrun

lemma judge_of_holds {id : Int} {conditions : List RenderedCondition}
    (h : ∀ c ∈ conditions, q.holds db (storedRowCondition c.sql q.table) [.int id] = .ok true) :
    q.judge db id conditions = .ok () := by
  induction conditions with
  | nil => rfl
  | cons c rest ih =>
    obtain ⟨hc, hrest⟩ := List.forall_mem_cons.mp h
    rw [judge, hc, ok_bind]
    exact ih hrest

end Request

/-- A create that succeeds for an anonymous caller succeeds for everyone with the same result. -/
lemma Naming.GuardsCreate.create_as {n : Naming} {q : Request} {p : Principal} {db db' : Database}
    {r : Rule} {t : Table} {c c' : Client} {row : Json.Fields} {id : Int}
    (h : n.GuardsCreate q db r t) (hq : q.principal.id = none)
    (hcreate : c.create q db row = (c', .ok (db', id))) :
    c.create (q.as p) db row = (c', .ok (db', id)) := by
  obtain ⟨record, columns, conditions, effect, hrecord, hbody, hinsert, hid, hjudge⟩ :=
    Client.create_eq_ok hcreate
  have hguard : q.createGuard db = .ok (columns, conditions) :=
    Request.createGuard_of_artifact hrecord hbody
  rw [h.body record hrecord, renderGuard] at hbody
  have hconditions := (ArtifactBody.createGuard.inj hbody).2
  obtain ⟨u, given, id', t', rowId, hu, hrow, rfl, -⟩ := Request.insertRow_eq_ok hinsert
  obtain rfl : t = u := Option.some.inj (h.table.symm.trans hu)
  obtain ⟨-, rfl⟩ := Table.insert_eq_ok hrow
  have hguards : n.GuardsCreate (q.as p) db r t :=
    ⟨h.isCreate, h.finite, h.table, h.name, h.only, h.full, h.body, h.closed⟩
  have hjudged : (q.as p).judge (db.setTable (t.withRow ⟨rowId, t.insertedCells given rowId⟩)) id
      conditions = .ok () := by
    refine Request.judge_of_holds fun condition hcondition => ?_
    have hholds := Request.judge_eq_ok hjudge _ hcondition
    rw [← hconditions] at hcondition
    obtain ⟨g, hg, rfl⟩ := List.mem_map.mp hcondition
    obtain ⟨hwhole, stored, hstored, htrue⟩ := (h.holds_iff hg _).mp hholds
    exact (hguards.holds_iff hg _).mpr ⟨hwhole, stored, hstored,
      iff_of_true rfl (Fragment.isTrue_of_anonymous hq (htrue.mp rfl))⟩
  rw [Client.create_inserted hguard hinsert] at hcreate
  rw [Client.create_inserted (q := q.as p) hguard (Request.insertRow_as hinsert), ← hid, hjudged,
    ← (Prod.mk.inj hcreate).1, ← hid]
  rfl

/-! ### Updates and deletions -/

namespace Table

def HasKey (t : Table) (key : String) (x : Cell) (r : Row) : Prop :=
  Cell.compareWith .eq ((t.values r).affinity key) ((t.values r).cell key) x = some true

/-- A key belongs to one row at most. -/
def TellsApart (t : Table) (key : String) : Prop :=
  ∀ x, ∀ r ∈ t.rows, ∀ r' ∈ t.rows, t.HasKey key x r → t.HasKey key x r' → r = r'

end Table

namespace Database

variable {db : Database} {t : Table} {env env' : Env}

lemma updateRows_congr {changes : List (Option Nat × BoundExpr)}
    (h : ∀ c ∈ changes, ∀ frames, c.2.eval db env frames = c.2.eval db env' frames)
    (t : Table) (rows : List Row) :
    updateRows db env changes t rows = updateRows db env' changes t rows := by
  induction rows generalizing t with
  | nil => rfl
  | cons r rest ih =>
    have hvalues : (changes.map fun c => (c.1, c.2.eval db env [r.frame])) =
        changes.map fun c => (c.1, c.2.eval db env' [r.frame]) :=
      List.map_congr_left fun c hc => by rw [h c hc]
    rw [updateRows, updateRows]
    simp only [hvalues, ih]

lemma bindChanges_params {b : Binder} {s : Scope} {changes : List (String × Sql.Expr)}
    {bound : List (Option Nat × BoundExpr)} (hchanges : ∀ c ∈ changes, ∃ i, c.2 = .param i)
    (h : bindChanges b t s changes = .ok bound) : ∀ c ∈ bound, ∃ i, c.2 = .param i := by
  induction changes generalizing bound with
  | nil =>
    cases h
    simp
  | cons c rest ih =>
    obtain ⟨name, e⟩ := c
    obtain ⟨⟨i, rfl⟩, hrest⟩ := List.forall_mem_cons.mp hchanges
    rw [bindChanges] at h
    obtain ⟨place, -, h⟩ := bind_eq_ok.mp h
    rw [Binder.expr, ok_bind] at h
    obtain ⟨more, hmore, h⟩ := bind_eq_ok.mp h
    cases h
    exact List.forall_mem_cons.mpr ⟨⟨i, rfl⟩, ih hrest hmore⟩

/-- The condition of a restricted write is true for the rows that have the key and meet the
filter. -/
lemma restriction_eq_true {n : Naming} {key : String} {i : Nat} {f : Fragment}
    {e : Sql.Expr} {bound : BoundExpr} {a : Affinity} (ht : db.table? t.name = some t)
    (he : f.Denotes n t.name e)
    (h : (db.binder true).expr [writeScope t t.name] (restriction t.name key i e) = .ok (bound, a))
    (env : Env) (r : Row) :
    (bound.eval db env [r.frame]).truth = some true ↔
      t.HasKey key (env.params.getD i .null) r ∧
        f.IsTrue ((db.binder true).surroundings db env n) (t.values r) := by
  have hfind : (db.binder true).find t.name = _ := find_table ht
  have hfits := Binder.claimsFit_of_find hfind n
  have hchain : (db.binder true).expr [writeScope t t.name] (chain .and
      [.compare .eq (.column (some t.name) key false) (.param i), e]) = .ok (bound, a) := h
  obtain ⟨hok, htrue⟩ := Binder.chain_meets hchain
  obtain ⟨hkey, hfilter⟩ := List.forall_mem_cons.mp hok
  obtain ⟨⟨k, ka⟩, hk⟩ := isOk_iff.mp hkey
  obtain ⟨⟨g, ga⟩, hg⟩ := isOk_iff.mp (hfilter e (List.mem_singleton_self e))
  rw [htrue, List.forall_mem_cons, List.forall_mem_singleton, Binder.meets_iff_truth hk,
    Binder.meets_iff_truth hg, Binder.equation_eq_ok (s := t.scope t.name) hk,
    Binder.fragment_eq_ok hfits he hg, Truth.truth_toCell, Truth.truth_toCell]
  exact Iff.rfl

/-- A restricted write that reaches a row for an anonymous caller reaches the same rows for
everyone, if a key belongs to one row at most. -/
lemma matching_eq {n : Naming} {key : String} {i : Nat} {f : Fragment} {e : Sql.Expr}
    {filter : BoundExpr} {a : Affinity} {params : List Cell} (ht : db.table? t.name = some t)
    (he : f.Denotes n t.name e)
    (hfilter : (db.binder true).expr [writeScope t t.name] (restriction t.name key i e) =
      .ok (filter, a))
    (hkey : t.TellsApart key) (hne : db.matching ⟨params, none⟩ t filter ≠ [])
    (caller : Option String) :
    db.matching ⟨params, caller⟩ t filter = db.matching ⟨params, none⟩ t filter := by
  have hmeets := restriction_eq_true ht he hfilter
  obtain ⟨r₀, hr₀⟩ := List.exists_mem_of_ne_nil _ hne
  obtain ⟨hmem₀, htrue₀⟩ := List.mem_filter.mp hr₀
  obtain ⟨hkey₀, hrule₀⟩ := (hmeets _ r₀).mp (beq_iff_eq.mp htrue₀)
  refine List.filter_congr fun r hr => ?_
  rw [Bool.eq_iff_iff, beq_iff_eq, beq_iff_eq, hmeets, hmeets]
  constructor
  · rintro ⟨hkey', -⟩
    obtain rfl := hkey _ r hr r₀ hmem₀ hkey' hkey₀
    exact ⟨hkey', hrule₀⟩
  · exact fun h => ⟨h.1, Fragment.isTrue_of_anonymous rfl h.2⟩

variable {db' : Database} {effect : Effect} {filter : BoundExpr} {params : List Cell}
  {caller : Option String}

lemma run_update_as {changes : List (Option Nat × BoundExpr)} (ht : db.table? t.name = some t)
    (hchanges : ∀ c ∈ changes, ∃ i, c.2 = .param i)
    (hsame : db.matching ⟨params, none⟩ t filter ≠ [] →
      db.matching ⟨params, caller⟩ t filter = db.matching ⟨params, none⟩ t filter)
    (hne : effect.changed ≠ 0)
    (h : db.run ⟨params, none⟩ (.update t.name changes filter) = .ok (db', effect)) :
    db.run ⟨params, caller⟩ (.update t.name changes filter) = .ok (db', effect) := by
  have hcells : ∀ c ∈ changes, ∀ frames,
      c.2.eval db ⟨params, caller⟩ frames = c.2.eval db ⟨params, none⟩ frames := by
    intro c hc frames
    obtain ⟨i, hi⟩ := hchanges c hc
    rw [hi]
    rfl
  rw [run.eq_def] at h ⊢
  dsimp only at h ⊢
  rw [writable, ht, ok_bind] at h ⊢
  obtain ⟨t', hrows, heffect⟩ := bind_eq_ok.mp h
  cases heffect
  rw [hsame (List.length_pos_iff.mp (Nat.pos_of_ne_zero hne)), updateRows_congr hcells, hrows]
  rfl

lemma run_delete_as (ht : db.table? t.name = some t)
    (hsame : db.matching ⟨params, none⟩ t filter ≠ [] →
      db.matching ⟨params, caller⟩ t filter = db.matching ⟨params, none⟩ t filter)
    (hne : effect.changed ≠ 0)
    (h : db.run ⟨params, none⟩ (.delete t.name filter) = .ok (db', effect)) :
    db.run ⟨params, caller⟩ (.delete t.name filter) = .ok (db', effect) := by
  rw [run.eq_def] at h ⊢
  dsimp only at h ⊢
  rw [writable, ht, ok_bind] at h ⊢
  cases h
  rw [hsame (List.length_pos_iff.mp (Nat.pos_of_ne_zero hne))]
  rfl

end Database

namespace Request

variable {q : Request} {p : Principal} {db : Database} {n : Naming} {t : Table} {f : Fragment}
  {columns : List String} {keyColumn : String} {result : Database × Nat}

lemma finish_ne_zero {effect : Database.Effect} (h : q.finish db effect = .ok result) :
    effect.changed ≠ 0 := by
  rw [finish] at h
  split at h
  · cases h
  · next hne => exact fun hzero => hne (beq_iff_eq.mpr hzero)

lemma changesOf_params (columns : List String) : ∀ c ∈ changesOf columns, ∃ i, c.2 = .param i :=
  List.forall_mem_map.mpr fun p _ => ⟨p.2, rfl⟩

/-- An update that succeeds for an anonymous caller succeeds for everyone with the same result, if
a key belongs to one row at most. -/
lemma update_as (hq : q.principal.id = none) (hf : f.IsFinite)
    (ht : db.table? q.table = some t) (hname : t.name = q.table) (hkey : t.TellsApart keyColumn)
    (hguard : q.restrictGuard db .update =
      .ok (columns, keyColumn, n.fragment (quoteName q.table) f))
    {key : Json} {changes : Json.Fields} (h : q.update db key changes = .ok result) :
    (q.as p).update db key changes = .ok result := by
  rw [update, hguard, ok_bind] at h
  rw [update, show (q.as p).restrictGuard db .update = _ from hguard, ok_bind]
  dsimp only at h ⊢
  split at h
  next => cases h
  next hempty =>
    rw [if_neg hempty]
    obtain ⟨_, hcolumns, h⟩ := bind_eq_ok.mp h
    obtain ⟨cells, hcells, h⟩ := bind_eq_ok.mp h
    obtain ⟨keyCell, hkeyCell, h⟩ := bind_eq_ok.mp h
    obtain ⟨⟨db', effect⟩, hexecute, hfinish⟩ := bind_eq_ok.mp h
    refine bind_eq_ok.mpr ⟨(), hcolumns, bind_eq_ok.mpr ⟨cells, hcells, bind_eq_ok.mpr
      ⟨keyCell, hkeyCell, bind_eq_ok.mpr ⟨(db', effect), ?_, hfinish⟩⟩⟩⟩
    change (q.as p).execute db (Sql.update q.table keyColumn (changes.map (·.1)) _) _ = _
    -- Everything before the statement is run is the same for all callers.
    refine execute_as (fun prepared hprepared hrun => ?_) hexecute
    have hne : changes.map (·.1) ≠ [] := by simpa using hempty
    obtain ⟨_, bound, ⟨e, rfl, he⟩, -, hbound, hstatement⟩ := Database.prepare_parsesAs
      (parse_restrictedUpdate n q.table keyColumn hne hf) hprepared
    rw [Database.bindStatement, Database.writable, ht, ok_bind] at hbound
    obtain ⟨bindings, hbindings, hbound⟩ := bind_eq_ok.mp hbound
    obtain ⟨⟨filter, a⟩, hfilter, hbound⟩ := bind_eq_ok.mp hbound
    cases hbound
    rw [← hname] at ht he hfilter
    rw [hstatement] at hrun ⊢
    rw [env, hq] at hrun
    exact Database.run_update_as ht
      (Database.bindChanges_params (changesOf_params _) hbindings)
      (fun hne => Database.matching_eq ht he hfilter hkey hne p.id) (finish_ne_zero hfinish) hrun

lemma delete_as (hq : q.principal.id = none) (hf : f.IsFinite)
    (ht : db.table? q.table = some t) (hname : t.name = q.table) (hkey : t.TellsApart keyColumn)
    (hguard : q.restrictGuard db .delete =
      .ok (columns, keyColumn, n.fragment (quoteName q.table) f))
    {key : Json} (h : q.delete db key = .ok result) : (q.as p).delete db key = .ok result := by
  rw [delete, hguard, ok_bind] at h
  rw [delete, show (q.as p).restrictGuard db .delete = _ from hguard, ok_bind]
  obtain ⟨keyCell, hkeyCell, h⟩ := bind_eq_ok.mp h
  obtain ⟨⟨db', effect⟩, hexecute, hfinish⟩ := bind_eq_ok.mp h
  refine bind_eq_ok.mpr ⟨keyCell, hkeyCell, bind_eq_ok.mpr ⟨(db', effect), ?_, hfinish⟩⟩
  change (q.as p).execute db (Sql.delete q.table keyColumn _) _ = _
  refine execute_as (fun prepared hprepared hrun => ?_) hexecute
  obtain ⟨_, bound, ⟨e, rfl, he⟩, -, hbound, hstatement⟩ := Database.prepare_parsesAs
    (parse_restrictedDelete n q.table keyColumn hf) hprepared
  rw [Database.bindStatement, Database.writable, ht, ok_bind] at hbound
  obtain ⟨⟨filter, a⟩, hfilter, hbound⟩ := bind_eq_ok.mp hbound
  cases hbound
  rw [← hname] at ht he hfilter
  rw [hstatement] at hrun ⊢
  rw [env, hq] at hrun
  exact Database.run_delete_as ht
    (fun hne => Database.matching_eq ht he hfilter hkey hne p.id) (finish_ne_zero hfinish) hrun

end Request

/-! ### Requests that find a rule -/

namespace Naming.Serves

variable {n : Naming} {q : Request} {db : Database} {r d : Rule} {t : Table}

lemma restrictGuard_eq (h : n.Serves db r d t) (hready : q.ready = true) (hq : q.table = r.table)
    (hrestrict : r.operation = .update ∨ r.operation = .delete) :
    ∃ key, t.shape.keyName? = some key ∧ q.restrictGuard db r.operation =
      .ok (t.shape.columns, key, n.fragment (quoteName q.table) (d.filter .never)) := by
  obtain ⟨record, key, hrecord, hkey, hbody⟩ := h.exists_restrictGuard hready hq hrestrict
  exact ⟨key, hkey, hq ▸ Request.restrictGuard_of_artifact hrecord hbody⟩

lemma read_as (h : n.Serves db r d t) (hcolumns : t.columns ≠ []) (hready : q.ready = true)
    (hq : q.table = r.table) (hread : r.operation = .read) (hanonymous : q.principal.id = none)
    (p : Principal) {records : List Json.Fields} (hrecords : q.read db = .ok records) :
    ∃ records', (q.as p).read db = .ok records' ∧ records.Sublist records' := by
  have hserves := h.servesRead hcolumns hready hq hread
  have hserves' : n.ServesRead (q.as p) db d t := h.servesRead hcolumns hready hq hread
  have hresolves := hserves.resolves_of_read hrecords
  rw [hserves.read_eq hresolves] at hrecords
  cases hrecords
  refine ⟨_, hserves'.read_eq hresolves, List.Sublist.map _ (filter_sublist_filter ?_)⟩
  intro row _ htrue
  exact beq_iff_eq.mpr (Fragment.isTrue_of_anonymous hanonymous (beq_iff_eq.mp htrue))

end Naming.Serves

namespace Admin

variable {n : Naming} {ids : Nat → Uuid} {user : Database} {x : State} {cs : List Client}
  {c : Client}

/-- A request in a session finds the artifacts of a rule or none at all. -/
lemma Session.artifact_cases (h : Session n ids user cs x) (hu : user.IsUnmanaged)
    (hcolumns : ∀ t ∈ user.tables, t.columns ≠ []) (hids : Set.InjOn ids (Set.Iio x.issued))
    (hc : c ∈ cs) (principal : Principal) (table : String) (busy : Bool) (operation : Operation) :
    let q := c.ask x.db principal table busy
    (∀ kind, q.artifact x.db kind operation = .ok none) ∨
      q.ready = true ∧ ∃ r d t, r.table = table ∧ r.operation = operation ∧
        n.Serves x.db r d t ∧ t.columns ≠ [] := by
  obtain ⟨rfl, hcs⟩ | ⟨past, hx⟩ := h.cases hu hids
  · exact .inl fun kind => artifact_unmanaged hu (hcs c hc) principal table busy kind operation
  · cases hrule : Store.hasRule x.db ⟨table, operation⟩ with
    | false => exact .inl fun kind => hx.artifact_eq_none hu hids hrule rfl kind
    | true =>
      obtain ⟨r, hr, hkey⟩ := (hx.hasRule_iff hu hids).mp hrule
      obtain ⟨d, t, hserves⟩ := hx.exists_serves hu hids hr
      exact .inr ⟨hx.ask_ready hu hids c principal table busy, r, d, t,
        congrArg RuleKey.table hkey, congrArg RuleKey.operation hkey, hserves,
        hx.columns_ne_nil hu hcolumns hids hserves⟩

/-- Anonymous callers have the least authority. No check is true for them, so what they read or
create, everyone can read or create with the same result. The same is true of updates and deletions
if a key of the table belongs to one row at most. -/
theorem anonymous_least (hu : user.IsUnmanaged) (hcolumns : ∀ t ∈ user.tables, t.columns ≠ [])
    (h : Session n ids user cs x) (hids : Set.InjOn ids (Set.Iio x.issued)) (hc : c ∈ cs)
    (table : String) (busy : Bool) (id : String) :
    let client := c.refresh x.db
    let q := c.ask x.db .anonymous table busy
    let q' := c.ask x.db (.user id) table busy
    (∀ (db : Database) (check : Check) (row : RowValues),
      ¬ check.fragment.IsTrue (q.surroundings db n) row) ∧
    (∀ records, q.read x.db = .ok records →
      ∃ records', q'.read x.db = .ok records' ∧ records.Sublist records') ∧
    (∀ row client' result, client.create q x.db row = (client', .ok result) →
      client.create q' x.db row = (client', .ok result)) ∧
    ((∀ t key, x.db.table? table = some t → t.shape.keyName? = some key → t.TellsApart key) →
      (∀ key changes result, q.update x.db key changes = .ok result →
        q'.update x.db key changes = .ok result) ∧
      ∀ key result, q.delete x.db key = .ok result → q'.delete x.db key = .ok result) := by
  intro client q q'
  -- An operation has no artifact, for nobody, or that of a rule.
  have hcases := h.artifact_cases hu hcolumns hids hc .anonymous table busy
  refine ⟨fun db check row => Check.not_isTrue rfl check, fun records hread => ?_,
    fun row client' result hcreate => ?_, fun hkeys => ⟨fun key changes result hupdate => ?_,
    fun key result hdelete => ?_⟩⟩
  · obtain hnone | ⟨hready, r, d, t, htable, hop, hserves, hfilled⟩ := hcases .read
    · rw [Request.read_of_none (hnone .readView)] at hread
      cases hread
      exact ⟨[], Request.read_of_none (q := q') (hnone .readView), .refl _⟩
    · exact hserves.read_as hfilled hready htable.symm hop rfl (.user id) hread
  · obtain hnone | ⟨hready, r, d, t, htable, hop, hserves, -⟩ := hcases .create
    · rw [Client.create_of_none (hnone .writeGuard)] at hcreate
      cases hcreate
    · exact (hserves.guardsCreate hready htable.symm hop).create_as (p := .user id) rfl hcreate
  · obtain hnone | ⟨hready, r, d, t, htable, hop, hserves, -⟩ := hcases .update
    · rw [Request.update_of_none (hnone .writeGuard)] at hupdate
      cases hupdate
    · obtain ⟨keyColumn, hkey, hguard⟩ :=
        hserves.restrictGuard_eq hready htable.symm (.inl hop)
      rw [hop] at hguard
      have ht : x.db.table? table = some t := htable ▸ hserves.table
      have hfinite : (d.filter .never).IsFinite := Rule.filter_isFinite hserves.validated trivial
      exact Request.update_as (q := q) (p := .user id) rfl hfinite ht (hserves.name.trans htable)
        (hkeys t keyColumn ht hkey) hguard hupdate
  · obtain hnone | ⟨hready, r, d, t, htable, hop, hserves, -⟩ := hcases .delete
    · rw [Request.delete_of_none (hnone .writeGuard)] at hdelete
      cases hdelete
    · obtain ⟨keyColumn, hkey, hguard⟩ :=
        hserves.restrictGuard_eq hready htable.symm (.inr hop)
      rw [hop] at hguard
      have ht : x.db.table? table = some t := htable ▸ hserves.table
      have hfinite : (d.filter .never).IsFinite := Rule.filter_isFinite hserves.validated trivial
      exact Request.delete_as (q := q) (p := .user id) rfl hfinite ht (hserves.name.trans htable)
        (hkeys t keyColumn ht hkey) hguard hdelete

/-! ### A column that hides the row id -/

/-- A value equals a text exactly if it is that text or a number that is written so. -/
lemma numberToText_eq_of_equals {s : String} {x : Cell} (h : Cell.Equals .text (.text s) x) :
    x.numberToText = .text s := by
  obtain ⟨-, -, hsame⟩ := h
  change Cell.same (.text s) x.numberToText = true at hsame
  cases hx : x.numberToText with
  | text t =>
    rw [hx] at hsame
    by_cases hst : s = t
    · rw [hst]
    · by_cases hlt : s < t <;> simp [Cell.same, Cell.order, hst, hlt] at hsame
  | null | int _ | real _ | blob _ =>
    rw [hx] at hsame
    simp [Cell.same, Cell.order, Cell.rank, Nat.compare_eq_ite_lt] at hsame

/-- Public and private notes. The table has no key, so its rows are addressed by the row id, and a
column has that name. -/
def boardTable (first : String) : Table :=
  { name := "t", columns := [{ name := "rowid", type := "TEXT" },
      { name := "owner", type := "TEXT" }, { name := "pub", type := "TEXT" }],
    rows := [⟨1, [.text first, .text "alice", .text "no"]⟩,
      ⟨2, [.text "a", .text "bob", .text "yes"]⟩] }

def board (first : String) : Database := { tables := [boardTable first] }

def boardRead : Rule := ⟨"t", .read, [], none⟩

/-- A rule by which everyone may change public notes and their own ones. -/
def boardUpdate : Rule :=
  ⟨"t", .update, [], some (.or [.literalEq "pub" (.text "yes"), .identityEq "owner"])⟩

def boardState (first : String) : State :=
  (Call.applyDocument ⟨[], [boardRead, boardUpdate]⟩).perform ⟨⟨"tg_"⟩, Uuid.nth, default⟩ false
    ⟨(Admin.start false (board first)).1, 0, {}⟩

def boardRequest (first : String) (principal : Principal) : Request :=
  Client.ask ⟨false, 0⟩ (boardState first).db principal "t" false

def boardStatement : String :=
  Sql.update "t" "rowid" ["owner"]
    (Naming.fragment ⟨"tg_"⟩ (quoteName "t") (boardUpdate.filter .never))

lemma boardState_eval (first : String) (hfirst : first ∈ ["a", "b"]) :
    (boardState first).issued = 2 ∧
    (boardState first).db.table? "t" = (board first).table? "t" ∧
    ((boardRequest first .anonymous).execute (boardState first).db boardStatement
      [.text "eve", .text "a"]).toOption.map (fun r => r.2.changed) = some 1 ∧
    ((boardRequest first (.user "alice")).execute (boardState first).db boardStatement
      [.text "eve", .text "a"]).toOption.map (fun r => r.2.changed) =
        some (if first = "a" then 2 else 1) := by
  revert first
  set_option maxRecDepth 100000 in decide +kernel

section

variable {first : String}

lemma board_isUnmanaged (hfirst : first ∈ ["a", "b"]) : (board first).IsUnmanaged := by
  decide +revert

lemma boardState_reached : Reached ⟨"tg_"⟩ Uuid.nth (board first)
    [⟨(Admin.start false (board first)).1, 0, {}⟩] (boardState first) :=
  .call .start (by decide) false _

lemma boardState_session : Session ⟨"tg_"⟩ Uuid.nth (board first)
    [Client.connect (board first)] (boardState first) :=
  .call (.opened (.connected .unopened) false) (by decide) false _

lemma boardState_ids (hfirst : first ∈ ["a", "b"]) :
    Set.InjOn Uuid.nth (Set.Iio (boardState first).issued) :=
  Uuid.injOn_nth (by rw [(boardState_eval first hfirst).1]; omega)

lemma boardUpdate_mem (hfirst : first ∈ ["a", "b"]) :
    boardUpdate ∈ (boardState first).policy.rules := by
  have hpolicy : (boardState first).policy = (Policy.setRule {} boardRead).setRule boardUpdate := by
    unfold boardState
    refine Call.perform_policy ?_
    rw [← boardState, (boardState_eval first hfirst).1]
    exact (by decide : 2 ≠ 0)
  rw [hpolicy]
  exact List.mem_cons_self

lemma boardRequest_update (hfirst : first ∈ ["a", "b"]) {principal : Principal} {count : Nat}
    (hcount : count ≠ 0)
    (h : ((boardRequest first principal).execute (boardState first).db boardStatement
      [.text "eve", .text "a"]).toOption.map (fun r => r.2.changed) = some count) :
    ∃ db, (boardRequest first principal).update (boardState first).db (.str "a")
      [("owner", .str "eve")] = .ok (db, count) := by
  obtain ⟨d, t, hserves⟩ := boardState_reached.exists_serves (board_isUnmanaged hfirst)
    (boardState_ids hfirst) (boardUpdate_mem hfirst)
  obtain rfl : d = boardUpdate := by obtain rfl | rfl := hserves.same <;> rfl
  have htable : (board first).table? "t" = some (boardTable first) :=
    List.find?_cons_of_pos (Text.sameName_self "t")
  obtain rfl : boardTable first = t := Option.some.inj
    (htable.symm.trans ((boardState_eval first hfirst).2.1.symm.trans hserves.table))
  obtain ⟨key, hkey, hguard⟩ := hserves.restrictGuard_eq (q := boardRequest first principal)
    (boardState_reached.ask_ready (board_isUnmanaged hfirst) (boardState_ids hfirst) _ _ _ _) rfl
    (.inl rfl)
  cases hkey
  obtain ⟨⟨db, effect⟩, hexecute, rfl⟩ := Option.map_eq_some_iff.mp h
  have hexecute := toOption_eq_some.mp hexecute
  refine ⟨db, ?_⟩
  rw [Request.update, show (boardRequest first principal).restrictGuard _ .update = _ from hguard,
    ok_bind]
  refine bind_eq_ok.mpr ⟨(), rfl, bind_eq_ok.mpr ⟨[.text "eve"], rfl, bind_eq_ok.mpr
    ⟨.text "a", rfl, bind_eq_ok.mpr ⟨(db, effect), hexecute, ?_⟩⟩⟩⟩
  exact if_neg (by simpa using hcount)

end

lemma board_tellsApart : (boardTable "b").TellsApart "rowid" := by
  have hcell : ∀ r ∈ (boardTable "b").rows,
      ((boardTable "b").values r).affinity "rowid" = .text ∧
      ((boardTable "b").values r).cell "rowid" = .text (if r.id = 1 then "b" else "a") := by decide
  have hname : ∀ r ∈ (boardTable "b").rows, ∀ x, (boardTable "b").HasKey "rowid" x r →
      x.numberToText = .text (if r.id = 1 then "b" else "a") := by
    intro r hr x hx
    rw [Table.HasKey, (hcell r hr).1, (hcell r hr).2] at hx
    exact numberToText_eq_of_equals (Cell.compareWith_eq_true.mp hx)
  intro x r hr r' hr' hx hx'
  have hsame := Cell.text.inj ((hname r hr x hx).symm.trans (hname r' hr' x hx'))
  clear hx hx' hname hcell
  decide +revert

/-- What an anonymous caller changes on a board of notes with different names, everyone changes in
the same way. -/
theorem anonymous_least_board : (board "b").IsUnmanaged ∧
    Session ⟨"tg_"⟩ Uuid.nth (board "b") [Client.connect (board "b")] (boardState "b") ∧
    ∃ result, (boardRequest "b" .anonymous).update (boardState "b").db (.str "a")
        [("owner", .str "eve")] = .ok result ∧
      ∀ id, (boardRequest "b" (.user id)).update (boardState "b").db (.str "a")
        [("owner", .str "eve")] = .ok result := by
  have hb : "b" ∈ ["a", "b"] := by decide
  have hu := board_isUnmanaged hb
  have hconnect : Client.connect (board "b") = ⟨false, 0⟩ := by
    rw [Client.connect, isMigrated_eq_false hu]
  obtain ⟨db, hupdate⟩ := boardRequest_update hb (by decide) (boardState_eval "b" hb).2.2.1
  refine ⟨hu, boardState_session, (db, 1), hupdate, fun id => ?_⟩
  have hleast := anonymous_least hu (by decide) boardState_session (boardState_ids hb)
    (List.mem_singleton.mpr hconnect.symm) "t" false id
  refine (hleast.2.2.2 fun t key ht hkey => ?_).1 _ _ _ hupdate
  rw [(boardState_eval "b" hb).2.1] at ht
  cases ht
  cases hkey
  exact board_tellsApart

/-- An update by an anonymous caller can have another result for a user: if a column hides the row
id, one key can belong to several rows, of which the user may change more. -/
theorem anonymous_update_differs :
    Reached ⟨"tg_"⟩ Uuid.nth (board "a") [⟨(Admin.start false (board "a")).1, 0, {}⟩]
      (boardState "a") ∧
    ∃ db db', (boardRequest "a" .anonymous).update (boardState "a").db (.str "a")
        [("owner", .str "eve")] = .ok (db, 1) ∧
      (boardRequest "a" (.user "alice")).update (boardState "a").db (.str "a")
        [("owner", .str "eve")] = .ok (db', 2) := by
  have ha : "a" ∈ ["a", "b"] := by decide
  obtain ⟨db, hdb⟩ := boardRequest_update ha (by decide) (boardState_eval "a" ha).2.2.1
  obtain ⟨db', hdb'⟩ := boardRequest_update ha (by decide) (boardState_eval "a" ha).2.2.2
  exact ⟨boardState_reached, db, db', hdb, hdb'⟩

end Admin

end RowPolicy
