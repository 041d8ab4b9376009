import RowPolicy.Proofs.Access.Writing

/-!
# Requests with and without a rule

A request that finds no artifact is refused, and it changes nothing. A request for a rule in service
finds its artifact, so it is never denied; a fetch is unavailable exactly if the rule has a
disjunction.
-/

namespace RowPolicy

open Store

/-! ### Rules that are stored -/

namespace Store

variable {db : Database} {c : Contents} {k : RuleKey}

def hasRule (db : Database) (k : RuleKey) : Bool :=
  match db.table? ruleTable.name with
  | some t => t.rows.any (hasTexts t [("table_name", k.table), ("operation", k.operation.text)])
  | none => false

lemma Contains.hasRule_iff (h : Contains db c) :
    Store.hasRule db k = true ↔ ∃ r ∈ c.rules, r.body.key = k := by
  obtain ⟨t, rs, ht, hschema, hcells, hperm⟩ := h.rules.holds.exists_rows
  have htable : db.table? ruleTable.name = some t := ht
  simp only [Store.hasRule, htable, hasTexts_of_schema hschema, List.any_eq_true]
  constructor
  · rintro ⟨row, hrow, hkey⟩
    obtain ⟨b, hb, hrow⟩ := exists_cells hcells hrow
    exact ⟨b, hperm.mem_iff.mp hb, of_decide_eq_true ((hasTexts_rule k hrow).symm.trans hkey)⟩
  · rintro ⟨b, hb, hkey⟩
    have hmem : ruleRows.cells b ∈ t.rows.map Row.cells :=
      hcells ▸ List.mem_map_of_mem (hperm.mem_iff.mpr hb)
    obtain ⟨row, hrow, hcell⟩ := List.mem_map.mp hmem
    exact ⟨row, hrow, (hasTexts_rule k hcell).trans (decide_eq_true hkey)⟩

end Store

/-! ### Errors for want of an artifact -/

/-- Whether a request fails because there is no artifact for it. -/
def AccessError.lacksArtifact : AccessError → Bool
  | .denied _ _ => true
  | .accessorUnavailable _ => true
  | _ => false

/-- A result that is not an error for want of an artifact. -/
def Accessed.IsSupplied {α : Type} (r : Accessed α) : Prop :=
  ∀ e, r = .error e → e.lacksArtifact = false

namespace Accessed.IsSupplied

variable {α β : Type} {r : Accessed α} {f : α → Accessed β}

lemma ok (a : α) : IsSupplied (.ok a : Accessed α) := fun _ h => nomatch h

lemma error {e : AccessError} (h : e.lacksArtifact = false) :
    IsSupplied (.error e : Accessed α) := fun _ he => by
  cases he
  exact h

lemma bind (h : r.IsSupplied) (hf : ∀ a, r = .ok a → (f a).IsSupplied) :
    IsSupplied (r >>= f) := fun e he => by
  cases hr : r with
  | error e' =>
    rw [hr] at he
    cases he
    exact h e hr
  | ok a =>
    rw [hr] at he
    exact hf a hr e he

lemma mapM {as : List α} (h : ∀ a ∈ as, (f a).IsSupplied) : IsSupplied (as.mapM f) := by
  induction as with
  | nil => exact ok []
  | cons a as ih =>
    rw [List.mapM_cons]
    refine (h a List.mem_cons_self).bind fun b _ => ?_
    exact (ih fun a ha => h a (List.mem_cons_of_mem _ ha)).bind fun bs _ => ok (b :: bs)

lemma map {g : α → β} (h : r.IsSupplied) : IsSupplied (r.map g) := fun e he => by
  cases hr : r with
  | error e' =>
    rw [hr] at he
    cases he
    exact h e hr
  | ok a =>
    rw [hr] at he
    cases he

lemma ne_denied (h : r.IsSupplied) (table : String) (operation : Operation) :
    r ≠ .error (.denied table operation) := fun he => nomatch h _ he

lemma ne_unavailable (h : r.IsSupplied) (table : String) :
    r ≠ .error (.accessorUnavailable table) := fun he => nomatch h _ he

end Accessed.IsSupplied

variable {a : ArtifactRecord} {columns : List String}

namespace Request

open Accessed.IsSupplied

variable {q : Request} {db : Database} {sql keyColumn : String}

lemma supplied_ofStorage {α : Type} (r : Bound α) : (ofStorage r).IsSupplied := by
  cases r with
  | error e => exact error rfl
  | ok a => exact ok a

lemma supplied_select (sql : String) (params : List Cell) : (q.select db sql params).IsSupplied :=
  (supplied_ofStorage _).bind fun _ _ => ok _

lemma supplied_holds (sql : String) (params : List Cell) :
    (q.holds db sql params).IsSupplied := by
  refine (supplied_ofStorage _).bind fun ⟨_, rows⟩ _ => ?_
  cases rows with
  | nil => exact error rfl
  | cons row rest =>
    dsimp only
    split
    · exact ok _
    · exact ok _
    · exact error rfl

lemma supplied_execute (sql : String) (params : List Cell) :
    (q.execute db sql params).IsSupplied := by
  refine (supplied_ofStorage _).bind fun p _ => (supplied_ofStorage _).bind fun _ _ => ?_
  split
  · exact error rfl
  · exact supplied_ofStorage _

lemma supplied_cellOf (column : String) (value : Json) : (cellOf column value).IsSupplied := by
  unfold cellOf
  split
  · exact ok _
  · exact error rfl

lemma supplied_cellsOf (row : Json.Fields) : (cellsOf row).IsSupplied :=
  mapM fun _ _ => supplied_cellOf _ _

lemma supplied_param (params : Json.Fields) (column : String) :
    (q.param params column).IsSupplied := by
  unfold param
  split
  · exact supplied_cellOf _ _
  · exact error rfl

lemma supplied_checkColumns (known : List String) (row : Json.Fields) :
    (q.checkColumns known row).IsSupplied := by
  unfold checkColumns
  split
  · exact error rfl
  · exact ok _

lemma supplied_checkAll (params : Json.Fields) (checks : List RenderedCheck) :
    (q.checkAll db params checks).IsSupplied := by
  induction checks with
  | nil => exact ok ()
  | cons check rest ih =>
    rw [checkAll]
    refine (supplied_param _ _).bind fun candidate _ => ?_
    refine (supplied_holds _ _).bind fun passed _ => ?_
    cases passed with
    | false => exact error rfl
    | true => exact ih

lemma supplied_judge (id : Int) (conditions : List RenderedCondition) :
    (q.judge db id conditions).IsSupplied := by
  induction conditions with
  | nil => exact ok ()
  | cons c rest ih =>
    rw [judge]
    refine (supplied_holds _ _).bind fun passed _ => ?_
    cases passed with
    | false => exact error rfl
    | true => exact ih

lemma supplied_insertRow (columns : List String) (row : Json.Fields) :
    (q.insertRow db columns row).IsSupplied :=
  (supplied_checkColumns _ _).bind fun _ _ => (supplied_cellsOf _).bind fun _ _ =>
    supplied_execute _ _

lemma supplied_finish (effect : Database.Effect) : (q.finish db effect).IsSupplied := by
  unfold finish
  split
  · exact error rfl
  · exact ok _

/-! ### Requests with an artifact -/

lemma supplied_fetch {parameters : List String} {checks : List RenderedCheck}
    (ha : q.artifact db .readAccessor .read = .ok (some a))
    (hbody : a.body = .accessor parameters checks sql) (params : Json.Fields) :
    (q.fetch db params).IsSupplied := by
  rw [fetch, ha, ok_bind]
  dsimp only
  rw [hbody]
  refine (supplied_checkAll _ _).bind fun _ _ => ?_
  exact (mapM fun _ _ => supplied_param _ _).bind fun _ _ => supplied_select _ _

lemma fetch_of_view {view : ArtifactRecord}
    (haccessor : q.artifact db .readAccessor .read = .ok none)
    (hview : q.artifact db .readView .read = .ok (some view)) (params : Json.Fields) :
    q.fetch db params = .error (.accessorUnavailable q.table) := by
  rw [fetch, haccessor, ok_bind]
  dsimp only
  rw [hview, ok_bind]
  rfl

lemma restrictGuard_of_artifact {operation : Operation}
    (ha : q.artifact db .writeGuard operation = .ok (some a))
    (hbody : a.body = .restrictGuard columns keyColumn sql) :
    q.restrictGuard db operation = .ok (columns, keyColumn, sql) := by
  rw [restrictGuard, ha, ok_bind]
  simp only [hbody]
  rfl

lemma supplied_update (ha : q.artifact db .writeGuard .update = .ok (some a))
    (hbody : a.body = .restrictGuard columns keyColumn sql) (key : Json) (changes : Json.Fields) :
    (q.update db key changes).IsSupplied := by
  rw [update, restrictGuard_of_artifact ha hbody, ok_bind]
  dsimp only
  split
  · exact error rfl
  · refine (supplied_checkColumns _ _).bind fun _ _ => (supplied_cellsOf _).bind fun _ _ => ?_
    refine (supplied_cellOf _ _).bind fun _ _ => (supplied_execute _ _).bind fun _ _ => ?_
    exact supplied_finish _

lemma supplied_delete (ha : q.artifact db .writeGuard .delete = .ok (some a))
    (hbody : a.body = .restrictGuard columns keyColumn sql) (key : Json) :
    (q.delete db key).IsSupplied := by
  rw [delete, restrictGuard_of_artifact ha hbody, ok_bind]
  refine (supplied_cellOf _ _).bind fun _ _ => (supplied_execute _ _).bind fun _ _ => ?_
  exact supplied_finish _

end Request

open Accessed.IsSupplied in
lemma Client.supplied_create {c : Client} {q : Request} {db : Database}
    {conditions : List RenderedCondition} (ha : q.artifact db .writeGuard .create = .ok (some a))
    (hbody : a.body = .createGuard columns conditions) (row : Json.Fields) :
    (c.create q db row).2.IsSupplied := by
  rw [create, Request.createGuard_of_artifact ha hbody, ok_bind]
  dsimp only
  cases hrow : q.insertRow db columns row with
  | error e => exact error (Request.supplied_insertRow columns row e hrow)
  | ok result => exact (Request.supplied_judge _ conditions).map

/-! ### Requests without an artifact -/

namespace Request

variable {q : Request} {db : Database}

lemma read_of_none (h : q.artifact db .readView .read = .ok none) : q.read db = .ok [] := by
  rw [read, h, ok_bind]
  rfl

lemma fetch_of_none (haccessor : q.artifact db .readAccessor .read = .ok none)
    (hview : q.artifact db .readView .read = .ok none) (params : Json.Fields) :
    q.fetch db params = .error (.denied q.table .read) := by
  rw [fetch, haccessor, ok_bind]
  dsimp only
  rw [hview, ok_bind]
  rfl

lemma update_of_none (h : q.artifact db .writeGuard .update = .ok none) (key : Json)
    (changes : Json.Fields) : q.update db key changes = .error (.notFound q.table) := by
  rw [update, restrictGuard, h, ok_bind]
  rfl

lemma delete_of_none (h : q.artifact db .writeGuard .delete = .ok none) (key : Json) :
    q.delete db key = .error (.notFound q.table) := by
  rw [delete, restrictGuard, h, ok_bind]
  rfl

end Request

namespace Client

lemma create_of_none {c : Client} {q : Request} {db : Database}
    (h : q.artifact db .writeGuard .create = .ok none) (row : Json.Fields) :
    c.create q db row = (c, .error (.denied q.table .create)) := by
  rw [create, Request.createGuard, h, ok_bind]
  rfl

/-! ### Calls of a client -/

inductive Call where
  | read
  | fetch (params : Json.Fields)
  | create (row : Json.Fields)
  | update (key : Json) (changes : Json.Fields)
  | delete (key : Json)

/-- What a caller learns. -/
inductive Answer where
  | rows (records : List Json.Fields)
  | created (id : Int)
  | changed (count : Nat)

namespace Call

def operation : Call → Operation
  | .read => .read
  | .fetch _ => .read
  | .create _ => .create
  | .update _ _ => .update
  | .delete _ => .delete

def answer (c : Client) (q : Request) (db : Database) : Call → Accessed (Database × Answer)
  | .read => (q.read db).map fun records => (db, .rows records)
  | .fetch params => (q.fetch db params).map fun records => (db, .rows records)
  | .create row => (c.create q db row).2.map fun result => (result.1, .created result.2)
  | .update key changes =>
    (q.update db key changes).map fun result => (result.1, .changed result.2)
  | .delete key => (q.delete db key).map fun result => (result.1, .changed result.2)

/-- The database after a call; a call that fails leaves it as it was. -/
def after (c : Client) (q : Request) (db : Database) (call : Call) : Database :=
  match call.answer c q db with
  | .ok (db, _) => db
  | .error _ => db

def client (c : Client) (q : Request) (db : Database) : Call → Client
  | .create row => (c.create q db row).1
  | _ => c

/-- The answer to a call that no rule permits. -/
def refusal (table : String) (db : Database) : Call → Accessed (Database × Answer)
  | .read => .ok (db, .rows [])
  | .fetch _ => .error (.denied table .read)
  | .create _ => .error (.denied table .create)
  | .update _ _ => .error (.notFound table)
  | .delete _ => .error (.notFound table)

variable {c : Client} {q : Request} {db db' : Database} {call : Call}

lemma answer_of_none (h : ∀ kind, q.artifact db kind call.operation = .ok none) :
    call.answer c q db = call.refusal q.table db := by
  cases call with
  | read => rw [answer, Request.read_of_none (h .readView)]; rfl
  | fetch params =>
    rw [answer, Request.fetch_of_none (h .readAccessor) (h .readView)]
    rfl
  | create row => rw [answer, create_of_none (h .writeGuard)]; rfl
  | update key changes => rw [answer, Request.update_of_none (h .writeGuard)]; rfl
  | delete key => rw [answer, Request.delete_of_none (h .writeGuard)]; rfl

lemma after_of_refusal {table : String} (h : call.answer c q db = call.refusal table db) :
    call.after c q db = db := by
  unfold after
  rw [h]
  cases call <;> rfl

lemma after_of_read (h : call.operation = .read) : call.after c q db = db := by
  unfold after
  split
  next db' a hanswer =>
    cases call with
    | read | fetch params =>
      obtain ⟨records, -, heq⟩ := map_eq_ok.mp hanswer
      exact (Prod.ext_iff.mp heq).1.symm
    | create _ | update _ _ | delete _ => cases h
  next => rfl

/-- A call that succeeds is a read, or it changes rows of its table. -/
lemma answer_cases {a : Answer} (hfull : ∀ t, db.table? q.table = some t → t.IsFull)
    (h : call.answer c q db = .ok (db', a)) :
    (call.operation = .read ∧ db' = db) ∨ db.Rewrites q.table db' := by
  cases call with
  | read | fetch params =>
    obtain ⟨records, -, heq⟩ := map_eq_ok.mp h
    cases heq
    exact .inl ⟨rfl, rfl⟩
  | create row =>
    obtain ⟨⟨db₁, id⟩, hcreate, heq⟩ := map_eq_ok.mp h
    cases heq
    exact .inr (Client.create_rewrites (Prod.ext rfl hcreate))
  | update key changes =>
    obtain ⟨⟨db₁, count⟩, hupdate, heq⟩ := map_eq_ok.mp h
    cases heq
    exact .inr (Request.update_rewrites hfull hupdate)
  | delete key =>
    obtain ⟨⟨db₁, count⟩, hdelete, heq⟩ := map_eq_ok.mp h
    cases heq
    exact .inr (Request.delete_rewrites hdelete)

lemma after_cases (hfull : ∀ t, db.table? q.table = some t → t.IsFull) :
    call.after c q db = db ∨ db.Rewrites q.table (call.after c q db) := by
  unfold after
  cases hanswer : call.answer c q db with
  | error e => exact .inl rfl
  | ok result => exact (answer_cases hfull hanswer).imp_left And.right

end Call

end Client

/-! ### Rules in service -/

namespace Naming.Serves

variable {n : Naming} {c : Client} {q : Request} {db : Database} {r d : Rule} {t : Table}

lemma hasOr_eq (h : n.Serves db r d t) :
    d.predicate.any Predicate.hasOr = r.predicate.any Predicate.hasOr := by
  obtain rfl | rfl := h.same
  · rfl
  · cases hp : r.predicate <;> simp [Rule.reread, hp, Predicate.hasOr_reread]

/-- A fetch is unavailable exactly if the rule has a disjunction, and never denied. -/
lemma fetch_cases (h : n.Serves db r d t) (hready : q.ready = true) (hq : q.table = r.table)
    (hread : r.operation = .read) (params : Json.Fields) :
    (r.predicate.any Predicate.hasOr = true ∧
      q.fetch db params = .error (.accessorUnavailable q.table)) ∨
    (r.predicate.any Predicate.hasOr = false ∧ (q.fetch db params).IsSupplied) := by
  have haccessor := d.accessor_isOk t.shape
  rw [h.hasOr_eq] at haccessor
  obtain ⟨f, hf, hnone⟩ | ⟨a, record, ha, hrecord, hbody⟩ := h.accessor_cases hready hq hread
  · obtain ⟨view, hview, -⟩ := h.exists_readView hready hq hread
    rw [hf] at haccessor
    exact .inl ⟨by simpa [Except.isOk, Except.toBool] using haccessor,
      Request.fetch_of_view hnone hview params⟩
  · rw [ha] at haccessor
    exact .inr ⟨by simpa [Except.isOk, Except.toBool] using haccessor,
      Request.supplied_fetch hrecord hbody params⟩

/-- The guard of a rule for changing or deleting has the key of the table and the filter of the
rule. -/
lemma exists_restrictGuard (h : n.Serves db r d t) (hready : q.ready = true)
    (hq : q.table = r.table) (hrestrict : r.operation = .update ∨ r.operation = .delete) :
    ∃ record key, q.artifact db .writeGuard r.operation = .ok (some record) ∧
      t.shape.keyName? = some key ∧ record.body = .restrictGuard t.shape.columns key
        (n.fragment (Sql.quoteName r.table) (d.filter .never)) := by
  have hwrite : r.operation ≠ .read := by
    obtain hop | hop := hrestrict <;> rw [hop] <;> exact Operation.noConfusion
  obtain ⟨g, record, hplan, hrecord, hbody⟩ := h.exists_guard hready hq hwrite
  unfold Rule.plan? at hplan
  rw [h.operation_eq] at hplan
  obtain hop | hop := hrestrict
  all_goals
    rw [hop] at hplan
    obtain ⟨key, hkey, hg⟩ := Option.map_eq_some_iff.mp hplan
    cases hg
    exact ⟨record, key, hrecord, hkey, h.name ▸ hbody⟩

/-- A call that has a rule is never denied. -/
lemma answer_ne_denied (h : n.Serves db r d t) (hready : q.ready = true) (hq : q.table = r.table)
    {call : Client.Call} (hcall : call.operation = r.operation) (table : String)
    (operation : Operation) : call.answer c q db ≠ .error (.denied table operation) := by
  cases call with
  | read =>
    obtain ⟨view, hview, -⟩ := h.exists_readView hready hq hcall.symm
    refine Accessed.IsSupplied.ne_denied (Accessed.IsSupplied.map ?_) table operation
    rw [Request.read, hview, ok_bind]
    exact Request.supplied_select _ _
  | fetch params =>
    obtain ⟨-, hfetch⟩ | ⟨-, hfetch⟩ := h.fetch_cases hready hq hcall.symm params
    · -- There is no accessor, which is another error.
      rw [Client.Call.answer, hfetch]
      intro he
      cases he
    · exact hfetch.map.ne_denied table operation
  | create row =>
    obtain ⟨g, record, hplan, hrecord, hbody⟩ :=
      h.exists_guard hready hq (by rw [← hcall]; exact Operation.noConfusion)
    rw [Rule.plan?_create (h.operation_eq.trans hcall.symm)] at hplan
    cases hplan
    rw [← hcall] at hrecord
    exact (Client.supplied_create hrecord hbody row).map.ne_denied table operation
  | update key changes =>
    obtain ⟨record, keyColumn, hrecord, -, hbody⟩ :=
      h.exists_restrictGuard hready hq (.inl hcall.symm)
    rw [← hcall] at hrecord
    exact (Request.supplied_update hrecord hbody key changes).map.ne_denied table operation
  | delete key =>
    obtain ⟨record, keyColumn, hrecord, -, hbody⟩ :=
      h.exists_restrictGuard hready hq (.inr hcall.symm)
    rw [← hcall] at hrecord
    exact (Request.supplied_delete hrecord hbody key).map.ne_denied table operation

end Naming.Serves

end RowPolicy
