import RowPolicy.Proofs.Access.Checks
import RowPolicy.Proofs.Access.SingleRow

/-!
# The first condition that is not true

A create stores its row and then judges it, as it is stored, by the conditions of the rule in the
order in which the predicate declares them. The first condition that is not true is the one that the
caller is told about, and nothing of the row is kept.
-/

namespace RowPolicy

open Sql Naming

/-! ### Conditions of a create rule -/

/-- The conditions on a new row: the leaves of the predicate in the order in which they are
declared, or the predicate as a whole if there is a disjunction in it. Without a predicate no row is
permitted. -/
def Rule.createConditions (r : Rule) : List GuardCondition :=
  match r.predicate with
  | none => [⟨"predicate", .never⟩]
  | some p =>
    if p.hasOr then [⟨"predicate", p.lowered⟩]
    else p.leafList.map fun c => ⟨c.column, c.fragment⟩

lemma Rule.guardConditions_eq (r : Rule) : r.guardConditions = r.createConditions := by
  unfold guardConditions createConditions
  cases r.predicate with
  | none => rfl
  | some p =>
    simp only [← Predicate.leaves?_isNone]
    cases hleaves : p.leaves? with
    | none => rfl
    | some cs => rw [Predicate.leafList_of_leaves? hleaves]; rfl

lemma Rule.label_of_hasOr {r : Rule} (h : r.predicate.any Predicate.hasOr = true)
    {g : GuardCondition} (hg : g ∈ r.createConditions) : g.label = "predicate" := by
  unfold createConditions at hg
  cases hp : r.predicate with
  | none => simp [hp] at h
  | some p =>
    have hor : p.hasOr = true := by simpa [hp] using h
    simp only [hp, hor, if_true, List.mem_singleton] at hg
    rw [hg]

/-- The first of some conditions that is not true for a row of a table: those before it are. -/
def GuardCondition.IsFirstFalse (n : Naming) (db : Database) (t : Table) (w : Surroundings)
    (stored : Row) (gs : List GuardCondition) (g : GuardCondition) : Prop :=
  ∃ before after, gs = before ++ g :: after ∧
    (∀ g' ∈ before, g'.CanBeJudged n db t ∧ g'.fragment.IsTrue w (t.values stored)) ∧
    g.CanBeJudged n db t ∧ ¬ g.fragment.IsTrue w (t.values stored)

/-! ### Results that are no refusals -/

namespace Accessed

variable {α β : Type} {r : Accessed α} {f : α → Accessed β}

lemma refusal?_error {e : AccessError} :
    refusal? (.error e : Accessed α) = refusal? (.error e : Accessed β) := by
  cases e <;> rfl

lemma refusal?_bind (h : r.refusal? = none) (hf : ∀ a, (f a).refusal? = none) :
    (r >>= f).refusal? = none := by
  cases r with
  | error e => exact refusal?_error.trans h
  | ok a => exact hf a

lemma refusal?_map (r : Accessed α) (f : α → β) :
    refusal? (r.map f : Accessed β) = r.refusal? := by
  cases r with
  | error e => exact refusal?_error
  | ok _ => rfl

lemma refusal?_mapM {as : List α} (h : ∀ a, (f a).refusal? = none) :
    refusal? (as.mapM f) = none := by
  induction as with
  | nil => rfl
  | cons a rest ih =>
    rw [List.mapM_cons]
    exact refusal?_bind (h a) fun _ => refusal?_bind ih fun _ => rfl

lemma refusal?_eq_some_iff {table condition reason : String} :
    r.refusal? = some (table, condition, reason) ↔
      r = .error (.unauthorized table condition reason) := by
  refine ⟨refusal?_eq_some, ?_⟩
  rintro rfl
  rfl

end Accessed

namespace Request

open Accessed

variable {q : Request} {db : Database}

lemma refusal?_ofStorage {α : Type} (r : Bound α) : (ofStorage r).refusal? = none := by
  cases r <;> rfl

lemma refusal?_holds (sql : String) (cells : List Cell) :
    (q.holds db sql cells).refusal? = none := by
  refine refusal?_bind (refusal?_ofStorage _) fun result => ?_
  obtain ⟨names, rows⟩ := result
  cases rows with
  | nil => rfl
  | cons row rest =>
    dsimp only
    cases row.headD .null <;> rfl

lemma refusal?_insertRow (columns : List String) (row : Json.Fields) :
    (q.insertRow db columns row).refusal? = none := by
  refine refusal?_bind ?_ fun _ => refusal?_bind (refusal?_mapM fun field => ?_) fun cells => ?_
  · unfold checkColumns
    cases (row.map Prod.fst).find? fun c => !columns.contains c <;> rfl
  · obtain ⟨column, value⟩ := field
    dsimp only [cellOf]
    cases Cell.ofJson? value <;> rfl
  · refine refusal?_bind (refusal?_ofStorage _) fun _ =>
      refusal?_bind (refusal?_ofStorage _) fun _ => ?_
    cases q.busy with
    | true => rfl
    | false => exact refusal?_ofStorage _

/-! ### Judging a row -/

variable {n : Naming} {t : Table} {g : GuardCondition} {id : Int}
  {refusal : String × String × String}

/-- A condition as it is stored with its guard. -/
def rendered (n : Naming) (t : Table) (g : GuardCondition) : RenderedCondition :=
  ⟨g.label, conditionReason g, n.fragment (quoteName t.name) g.fragment⟩

/-- A condition refuses the row, or it is true and leaves the outcome to the conditions after it. -/
lemma refusal?_judge_cons (hname : q.table = t.name) (rest : List RenderedCondition) :
    (q.judge db id (rendered n t g :: rest)).refusal? = some refusal ↔
      q.holds db (judgeSql n t g) [.int id] = .ok false ∧
          refusal = (t.name, g.label, conditionReason g) ∨
        q.holds db (judgeSql n t g) [.int id] = .ok true ∧
          (q.judge db id rest).refusal? = some refusal := by
  have hjudge : q.judge db id (rendered n t g :: rest) = (do
      let passed ← q.holds db (judgeSql n t g) [.int id]
      if !passed then throw (.unauthorized t.name g.label (conditionReason g))
      q.judge db id rest) := by
    rw [judge, hname]
    rfl
  rw [hjudge]
  cases hholds : q.holds db (judgeSql n t g) [.int id] with
  | error e =>
    have hnone : refusal? (.error e : Accessed Bool) = none := hholds ▸ refusal?_holds _ _
    rw [error_bind, refusal?_error, hnone]
    simp
  | ok passed =>
    rw [ok_bind]
    cases passed with
    | false =>
      change refusal? (.error (.unauthorized t.name g.label (conditionReason g)) : Accessed Unit) =
        some refusal ↔ _
      simp [refusal?, eq_comm]
    | true =>
      change (q.judge db id rest).refusal? = some refusal ↔ _
      simp

/-- The first condition that is not true for the row with an id refuses it. -/
lemma refusal?_judge (hname : q.table = t.name) (ht : db.table? t.name = some t)
    (hfixed : (db.binder true).IsFixed db) {gs : List GuardCondition}
    (hfinite : ∀ g ∈ gs, g.fragment.IsFinite) :
    (q.judge db id (gs.map (rendered n t))).refusal? = some refusal ↔
      ∃ stored g, t.selected? id = some stored ∧
        GuardCondition.IsFirstFalse n db t (q.surroundings db n) stored gs g ∧
        refusal = (t.name, g.label, conditionReason g) := by
  -- Each step judges one condition and, if it is true, goes on to the next.
  induction gs with
  | nil =>
    refine iff_of_false (fun h => nomatch h) ?_
    rintro ⟨stored, g, -, ⟨before, after, hsplit, -⟩, -⟩
    cases before <;> cases hsplit
  | cons g gs ih =>
    obtain ⟨hg, hgs⟩ := List.forall_mem_cons.mp hfinite
    rw [List.map_cons, refusal?_judge_cons hname, ih hgs, holds_judgeSql hg ht hfixed,
      holds_judgeSql hg ht hfixed]
    constructor
    · rintro (⟨⟨hjudged, stored, hstored, htrue⟩, hrefusal⟩ | ⟨⟨hjudged, stored, hstored, htrue⟩,
        stored', g', hstored', ⟨before, after, rfl, hbefore, hfirst⟩, hrefusal⟩)
      · exact ⟨stored, g, hstored, ⟨[], gs, rfl, by simp, hjudged,
          fun h => Bool.false_ne_true (htrue.mpr h)⟩, hrefusal⟩
      · cases hstored.symm.trans hstored'
        exact ⟨stored, g', hstored, ⟨g :: before, after, rfl,
          List.forall_mem_cons.mpr ⟨⟨hjudged, htrue.mp rfl⟩, hbefore⟩, hfirst⟩, hrefusal⟩
    · rintro ⟨stored, g', hstored, ⟨before, after, hsplit, hbefore, hjudged, hfalse⟩, hrefusal⟩
      cases before with
      | nil =>
        cases hsplit
        exact .inl ⟨⟨hjudged, stored, hstored, iff_of_false Bool.false_ne_true hfalse⟩, hrefusal⟩
      | cons first before =>
        cases hsplit
        obtain ⟨⟨hfirst, htrue⟩, hbefore⟩ := List.forall_mem_cons.mp hbefore
        exact .inr ⟨⟨hfirst, stored, hstored, iff_of_true rfl htrue⟩, stored, g', hstored,
          ⟨before, after, rfl, hbefore, hjudged, hfalse⟩, hrefusal⟩

end Request

/-! ### Creates that are refused -/

/-- A create is refused exactly if the row is stored and then refused. -/
lemma Client.refusal?_create {c : Client} {q : Request} {db : Database} {row : Json.Fields}
    {columns : List String} {conditions : List RenderedCondition}
    {refusal : String × String × String} (hguard : q.createGuard db = .ok (columns, conditions)) :
    (c.create q db row).2.refusal? = some refusal ↔
      ∃ db' effect, q.insertRow db columns row = .ok (db', effect) ∧
        (q.judge db' (effect.lastRowId.getD c.lastRowId) conditions).refusal? = some refusal := by
  cases hinsert : q.insertRow db columns row with
  | error e =>
    have hcreate : c.create q db row = (c, .error e) := by
      unfold create
      rw [hguard, ok_bind]
      dsimp only
      rw [hinsert]
      rfl
    have hnone : Accessed.refusal? (.error e : Accessed (Database × Database.Effect)) = none :=
      hinsert ▸ Request.refusal?_insertRow columns row
    rw [hcreate, Accessed.refusal?_error, hnone]
    simp
  | ok result =>
    obtain ⟨db', effect⟩ := result
    rw [create_inserted hguard hinsert, Accessed.refusal?_map]
    simp

lemma Naming.GuardsCreate.refusal?_judge {n : Naming} {q : Request} {db : Database} {r : Rule}
    {t : Table} {id : Int} {refusal : String × String × String} (h : n.GuardsCreate q db r t)
    (new : Row) :
    let t' := t.withRow new
    let db' := db.setTable t'
    (q.judge db' id (r.guardConditions.map (Request.rendered n t))).refusal? = some refusal ↔
      ∃ stored g, t'.selected? id = some stored ∧
        GuardCondition.IsFirstFalse n db' t' (q.surroundings db' n) stored r.createConditions g ∧
        refusal = (t.name, g.label, conditionReason g) := by
  rw [← Rule.guardConditions_eq]
  exact Request.refusal?_judge (t := t.withRow new) h.name.symm (h.name ▸ h.table_setTable new)
    (Database.binder_isFixed (h.closed_setTable _)) fun g hg => h.condition_isFinite hg

/-- A create through a rule is refused exactly if the row can be stored and one of the conditions is
the first that is not true for the row that the new id selects. -/
lemma Naming.Serves.refusal?_create {n : Naming} {q : Request} {db : Database} {r d : Rule}
    {t : Table} {c : Client} {row : Json.Fields} {refusal : String × String × String}
    (h : n.Serves db r d t) (hready : q.ready = true) (hq : q.table = r.table)
    (hcreate : r.operation = .create) :
    (c.create q db row).2.refusal? = some refusal ↔
      ∃ new effect stored g,
        let t' := t.withRow new
        let db' := db.setTable t'
        q.insertRow db t.shape.columns row = .ok (db', effect) ∧
        t'.selected? (effect.lastRowId.getD c.lastRowId) = some stored ∧
        (t.NamesRowId → stored = new) ∧
        GuardCondition.IsFirstFalse n db' t' (q.surroundings db' n) stored d.createConditions g ∧
        refusal = (t.name, g.label, conditionReason g) := by
  have hguards := h.guardsCreate hready hq hcreate
  rw [Client.refusal?_create (h.createGuard_eq hready hq hcreate)]
  constructor
  · rintro ⟨db', effect, hinsert, hrefused⟩
    obtain ⟨u, given, id', t', rowId, hu, hrow, rfl, heffect⟩ := Request.insertRow_eq_ok hinsert
    obtain rfl : t = u := Option.some.inj (hguards.table.symm.trans hu)
    obtain ⟨hcheck, rfl⟩ := Table.insert_eq_ok hrow
    obtain ⟨stored, g, hstored, hfirst, hrefusal⟩ := (hguards.refusal?_judge _).mp hrefused
    refine ⟨_, effect, stored, g, hinsert, hstored, fun hnames => ?_, hfirst, hrefusal⟩
    refine Table.eq_of_selected?_withRow hnames h.full (fun hwithout => ?_) hstored
    rw [heffect, hwithout]
    exact ⟨rfl, (Table.checkRow_iff.mp hcheck).2.1 hwithout⟩
  · rintro ⟨new, effect, stored, g, hinsert, hstored, -, hfirst, hrefusal⟩
    exact ⟨_, effect, hinsert,
      (hguards.refusal?_judge new).mpr ⟨stored, g, hstored, hfirst, hrefusal⟩⟩

namespace Admin

variable {n : Naming} {ids : Nat → Uuid} {user : Database} {past : List State} {x : State}

def measuredCreate : Rule := { measuredRule with operation := .create }

def measuredReads : State :=
  (Call.defineRule ⟨"t", .read, [], none⟩).perform ⟨⟨"tg_"⟩, Uuid.nth, default⟩ false
    ⟨(Admin.start false measured).1, 0, {}⟩

def measuredWrites : State :=
  (Call.defineRule measuredCreate).perform ⟨⟨"tg_"⟩, Uuid.nth, default⟩ false measuredReads

def measuredRequest : Request :=
  Client.ask ⟨false, 0⟩ measuredWrites.db ⟨some "alice"⟩ "t" false

/-- The conditions of the guard have the literal as it was given. -/
def measuredConditions : List RenderedCondition :=
  [⟨"x", "must equal 31.245270191439438", "\"t\".\"x\" = 31.245270191439438"⟩]

lemma measuredWrites_eval : measuredReads.issued = 1 ∧ measuredWrites.issued = 2 ∧
    measuredWrites.db.table? "t" = measured.table? "t" ∧
    (measuredCreate.guardConditions.map fun c => (⟨c.label, Naming.conditionReason c,
      Naming.fragment ⟨"tg_"⟩ (Sql.quoteName "t") c.fragment⟩ : RenderedCondition)) =
        measuredConditions ∧
    ((measuredRequest.insertRow measuredWrites.db ["x"]
      [("x", .real ⟨0x403f3eca06faea83⟩)]).toOption.any fun result =>
        result.1.table? "t" == gauged.table? "t" &&
          (measuredRequest.judge result.1 (result.2.lastRowId.getD 0) measuredConditions).refusal? ==
            some ("t", "x", "must equal 31.245270191439438")) = true := by
  set_option maxRecDepth 100000 in decide +kernel

lemma measuredReads_reached : Reached ⟨"tg_"⟩ Uuid.nth measured
    [⟨(Admin.start false measured).1, 0, {}⟩] measuredReads :=
  .call .start (by decide) false _

lemma measuredWrites_reached : Reached ⟨"tg_"⟩ Uuid.nth measured
    [measuredReads, ⟨(Admin.start false measured).1, 0, {}⟩] measuredWrites :=
  .call measuredReads_reached (by decide) false _

lemma measuredWrites_ids : Set.InjOn Uuid.nth (Set.Iio measuredWrites.issued) :=
  Uuid.injOn_nth (by rw [measuredWrites_eval.2.1]; omega)

lemma measuredWrites_issued : measuredReads.issued < measuredWrites.issued := by
  rw [measuredWrites_eval.1, measuredWrites_eval.2.1]
  exact Nat.lt_succ_self 1

lemma measuredCreate_mem : measuredCreate ∈ measuredWrites.policy.rules := by
  have hpolicy : measuredWrites.policy = measuredReads.policy.setRule measuredCreate := by
    unfold measuredWrites
    exact Call.perform_policy measuredWrites_issued.ne'
  rw [hpolicy]
  exact List.mem_cons_self

lemma measuredWrites_serves : ∃ t, measured.table? "t" = some t ∧
    Naming.Serves ⟨"tg_"⟩ measuredWrites.db measuredCreate measuredCreate t := by
  obtain ⟨t, hserves⟩ := Reached.serves_defined measuredReads_reached measured_isUnmanaged
    (by decide) measuredWrites_ids measuredWrites_issued
  exact ⟨t, measuredWrites_eval.2.2.1.symm.trans hserves.table, hserves⟩

end Admin

end RowPolicy
