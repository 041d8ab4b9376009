import RowPolicy.Proofs.Access.ClaimTables

/-!
# Rows that are visible

In every state of a run a read of a table with a read rule yields the rows that the rule permits,
as the projection of the rule shows them. It fails only if a claim that the rule looks up cannot be
read.
-/

namespace RowPolicy

open Store

/-! ### Requests of a client -/

/-- A request of a client, which looks for the store first. -/
def Client.ask (c : Client) (db : Database) (principal : Principal) (table : String)
    (busy : Bool) : Request :=
  (c.refresh db).request principal table busy

/-- What a request sees of the caller and of the claims. -/
def Request.surroundings (q : Request) (db : Database) (n : Naming) : Surroundings :=
  (db.binder true).surroundings db (q.env []) n

open scoped Classical in
noncomputable def Table.permitted (t : Table) (r : Rule) (w : Surroundings) : List Row :=
  t.rows.filter fun row => r.Permits w (t.values row)

lemma Table.mem_permitted {t : Table} {r : Rule} {w : Surroundings} {row : Row} :
    row ∈ t.permitted r w ↔ row ∈ t.rows ∧ r.Permits w (t.values row) := by
  simp [permitted]

open scoped Classical in
lemma Table.filter_eq_permitted {t : Table} {r : Rule} {w : Surroundings} {keep : Row → Bool}
    (h : ∀ row, keep row = true ↔ r.Permits w (t.values row)) :
    t.rows.filter keep = t.permitted r w := by
  refine List.filter_congr fun row _ => ?_
  rw [Bool.eq_iff_iff, h row, decide_eq_true_iff]

/-- The store is there once it holds anything. -/
lemma Store.Contains.isMigrated {db : Database} {c : Contents} (h : Contains db c) :
    Store.isMigrated db = true := by
  have hany : ∀ (T : Table) (t : Table), db.table? T.name = some t → t.schema = T →
      (db.tables.any fun u => u.name == T.name) = true := fun T t ht hschema =>
    List.any_eq_true.mpr ⟨t, List.mem_of_find?_eq_some ht,
      beq_iff_eq.mpr (show t.name = T.name from hschema ▸ rfl)⟩
  obtain ⟨tr, htr, hr, -⟩ := h.rules.holds
  obtain ⟨tk, htk, hk, -⟩ := h.claims.holds
  obtain ⟨ta, hta, ha, -⟩ := h.artifacts.holds
  simp only [Store.isMigrated, tableNames, Store.tables, List.map_cons, List.map_nil, List.all_cons,
    List.all_nil, Bool.and_true, Bool.and_eq_true]
  exact ⟨hany _ tr htr hr, hany _ tk htk hk, hany _ ta hta ha⟩

/-! ### Reads -/

lemma Request.select_eq_nil {q : Request} {db : Database} {sql : String}
    {params : List Cell}
    (h : (db.select true (q.env params) sql).toOption.map Prod.snd = some []) :
    q.select db sql params = .ok [] := by
  cases hselect : db.select true (q.env params) sql with
  | error e => simp [hselect, Except.toOption] at h
  | ok result =>
    obtain ⟨names, rows⟩ := result
    obtain rfl : rows = [] := by simpa [hselect, Except.toOption] using h
    exact Request.select_eq_ok.mpr ⟨names, [], hselect, rfl⟩

namespace Naming.ServesRead

variable {n : Naming} {q : Request} {db : Database} {r : Rule} {t : Table}

lemma read_eq_permitted (h : n.ServesRead q db r t) (hshow : t.CanShow r.projection)
    (hresolves : (r.filter .always).Resolves (db.binder true) n (t.scope t.name)) :
    q.read db = .ok ((t.permitted r (q.surroundings db n)).map (t.shownRow r.projection)) := by
  have hkeep : ∀ row, ((r.filter .always).truth ((db.binder true).surroundings db (q.env []) n)
      (t.values row) == some true) = true ↔ r.Permits (q.surroundings db n) (t.values row) :=
    fun row => beq_iff_eq.trans (Rule.filter_always_isTrue h.isRead)
  rw [h.read_eq hresolves, Table.filter_eq_permitted hkeep]
  exact congrArg Except.ok (List.map_congr_left fun row _ => hshow.record_eq_shownRow row)

end Naming.ServesRead

namespace Admin

variable {n : Naming} {ids : Nat → Uuid} {user : Database} {past : List State} {x : State}

lemma Reached.isMigrated (h : Reached n ids user past x) (hu : user.IsUnmanaged)
    (hids : Set.InjOn ids (Set.Iio x.issued)) : Store.isMigrated x.db = true := by
  obtain ⟨catalog, c, -, hsound⟩ := h.exists_contents hu hids
  exact hsound.defined.stored.isMigrated

lemma Reached.ask_ready (h : Reached n ids user past x) (hu : user.IsUnmanaged)
    (hids : Set.InjOn ids (Set.Iio x.issued)) (client : Client) (principal : Principal)
    (table : String) (busy : Bool) : (client.ask x.db principal table busy).ready = true := by
  rw [Client.ask, Client.request, Client.refresh, h.isMigrated hu hids, Bool.or_true]

lemma Reached.columns_ne_nil {r d : Rule} {t : Table} (h : Reached n ids user past x)
    (hu : user.IsUnmanaged) (hcolumns : ∀ t ∈ user.tables, t.columns ≠ [])
    (hids : Set.InjOn ids (Set.Iio x.issued)) (hserves : n.Serves x.db r d t) :
    t.columns ≠ [] := by
  obtain ⟨catalog, c, -, hsound⟩ := h.exists_contents hu hids
  exact hsound.columns_ne_nil (Database.columns_managed hcolumns) hserves.table

/-- The teams that a principal is a member of. -/
def teams : Claim := ⟨"k", .table "m", "p", "g", []⟩

def rosterTable (others : List Row) : Table :=
  { name := "m", columns := [{ name := "p", type := "TEXT" }, { name := "g", type := "TEXT" }],
    rows := ⟨1, [.text "alice", .text "red"]⟩ :: others }

def workTable : Table :=
  { name := "d", columns := [{ name := "team", type := "TEXT" }],
    rows := [⟨1, [.text "red"]⟩, ⟨2, [.text "blue"]⟩] }

def roster : Database :=
  { tables := [workTable, rosterTable [⟨2, [.text "bob", .text "red"]⟩]] }

/-- A rule that shows the members of a team its work. -/
def rosterRead : Rule := ⟨"d", .read, [], some (.membership "team" "k")⟩

def rosterState : State :=
  (Call.applyDocument ⟨[teams], [rosterRead]⟩).perform ⟨⟨"tg_"⟩, Uuid.nth, default⟩ false
    ⟨(Admin.start false roster).1, 0, {}⟩

lemma roster_isUnmanaged : roster.IsUnmanaged := by decide

lemma rosterState_reached : Reached ⟨"tg_"⟩ Uuid.nth roster
    [⟨(Admin.start false roster).1, 0, {}⟩] rosterState :=
  .call .start (by decide) false _

lemma rosterState_eval : rosterState.issued = 2 ∧
    (Store.claims (Admin.start false roster).1).toOption.map List.length = some 0 ∧
    ["d", "m"].map rosterState.db.table? =
      [some workTable, some (rosterTable [⟨2, [.text "bob", .text "red"]⟩])] := by
  set_option maxRecDepth 100000 in decide +kernel

lemma rosterState_work : rosterState.db.table? "d" = some workTable :=
  (List.cons.inj rosterState_eval.2.2).1

lemma rosterState_members : rosterState.db.table? "m" =
    some (rosterTable [⟨2, [.text "bob", .text "red"]⟩]) :=
  (List.cons.inj (List.cons.inj rosterState_eval.2.2).2).1

lemma rosterState_policy : rosterState.policy = (Policy.setClaim {} teams).setRule rosterRead := by
  unfold rosterState
  refine Call.perform_policy ?_
  rw [← rosterState, rosterState_eval.1]
  exact (by decide : 2 ≠ 0)

lemma rosterState_ids : Set.InjOn Uuid.nth (Set.Iio rosterState.issued) :=
  Uuid.injOn_nth (by rw [rosterState_eval.1]; omega)

lemma rosterState_installed : rosterState.db.Installed (Naming.claimView ⟨"tg_"⟩ "k")
    (Naming.claimViewSql ⟨"tg_"⟩ teams) := by
  have hclaims : rosterState.policy.claims = [teams] := by
    rw [rosterState_policy]
    rfl
  refine rosterState_reached.installed_claim roster_isUnmanaged rosterState_ids
    (hclaims ▸ List.mem_singleton_self teams) ?_ fun other hother _ => ?_
  · rintro ⟨x, hx, ks, hks, k, hk, -⟩
    rw [List.mem_singleton.mp hx] at hks
    have hlength := rosterState_eval.2.1
    rw [hks] at hlength
    exact List.ne_nil_of_mem hk (List.length_eq_zero_iff.mp (Option.some.inj hlength))
  · rw [hclaims, List.mem_singleton] at hother
    rw [hother]

/-- The columns of the claim, and where the table of the members has them. -/
def rosterPlaces : List (Nat × Heading) :=
  [(0, ("principal_id", .text)), (1, ("related_id", .text))]

lemma rosterTable_places : ((rosterTable [⟨2, [.text "bob", .text "red"]⟩]).scope "m").rename?
    teams.columns = some rosterPlaces := by
  decide

lemma rosterState_knows : Binder.Knows (rosterState.db.binder true) ⟨"tg_"⟩ ⟨"k", none⟩ :=
  Naming.knows_of_installed rosterState_installed rfl rosterState_members rosterTable_places rfl
    fun _ hfilter => nomatch hfilter

lemma roster_related {w : Surroundings} (hcaller : w.principal = some "alice")
    (hclaims : w.claims "k" = ⟨(rosterTable [⟨2, [.text "bob", .text "red"]⟩]).rows.map fun r =>
        (Naming.claimScope ⟨"tg_"⟩ teams rosterPlaces).claimRow (cellsAt rosterPlaces r.frame),
      (Naming.claimScope ⟨"tg_"⟩ teams rosterPlaces).affinity "related_id",
      (Naming.claimScope ⟨"tg_"⟩ teams rosterPlaces).affinity⟩) :
    w.relatedIds ⟨"k", none⟩ = [.text "red"] ∧ (w.claims "k").related = .text := by
  simp only [Surroundings.relatedIds, Surroundings.admits, Surroundings.isCaller, hcaller, hclaims]
  decide

/-- Alice is in the red team only. -/
lemma rosterState_related :
    let w := (Client.ask ⟨false, 0⟩ rosterState.db (.user "alice") "d" false).surroundings
      rosterState.db ⟨"tg_"⟩
    w.relatedIds ⟨"k", none⟩ = [.text "red"] ∧ (w.claims "k").related = .text := by
  have hclaims := Naming.claimRows_table rosterState_installed rfl rosterState_members
    rosterTable_places ⟨[], some "alice"⟩
  generalize rosterState = x at hclaims ⊢
  exact roster_related rfl hclaims

/-- A table with the number that the literal of the measured rule is read back as. -/
def gauged : Database :=
  { tables := [{ name := "t", columns := [{ name := "x", type := "REAL" }],
                 rows := [⟨1, [.real ⟨0x403f3eca06faea83⟩]⟩] }] }

/-- The state after the measured rule was defined for it. -/
def gaugedState : State :=
  (Call.defineRule measuredRule).perform ⟨⟨"tg_"⟩, Uuid.nth, default⟩ false
    ⟨(Admin.start false gauged).1, 0, {}⟩

lemma gauged_isUnmanaged : gauged.IsUnmanaged := by decide

lemma gaugedState_reached : Reached ⟨"tg_"⟩ Uuid.nth gauged
    [⟨(Admin.start false gauged).1, 0, {}⟩] gaugedState :=
  .call .start (by decide) false _

lemma gaugedState_eval : gaugedState.issued = 1 ∧
    gaugedState.db.table? "t" = gauged.table? "t" ∧
    (gaugedState.db.select true ⟨[], some "alice"⟩ (Sql.selectAll "tg_read_t")).toOption.map
      Prod.snd = some [] ∧
    (gaugedState.db.select true ⟨[], some "alice"⟩ (Naming.accessorQuery ⟨"tg_"⟩
      ⟨"t", [], [.baked "x" (.real ⟨0x403f3eca06faea82⟩)]⟩)).toOption.map Prod.snd = some [] ∧
    Fragment.literalTruth ((gauged.tables.headD default).values
      ⟨1, [.real ⟨0x403f3eca06faea83⟩]⟩) "x" (Literal.reread (.real ⟨0x403f3eca06faea82⟩)) =
        some true := by
  set_option maxRecDepth 100000 in decide +kernel

lemma gaugedState_ids : Set.InjOn Uuid.nth (Set.Iio gaugedState.issued) :=
  Uuid.injOn_nth (by rw [gaugedState_eval.1]; omega)

lemma gaugedState_rules : gaugedState.policy.rules = [measuredRule] := by
  have hpolicy : gaugedState.policy = Policy.setRule {} measuredRule := by
    unfold gaugedState
    exact Call.perform_policy (by rw [← gaugedState, gaugedState_eval.1]; decide)
  rw [hpolicy]
  rfl

lemma gaugedState_serves : ∃ t, gauged.table? "t" = some t ∧
    Naming.Serves ⟨"tg_"⟩ gaugedState.db measuredRule measuredRule t := by
  have hissued := gaugedState_eval.1
  unfold gaugedState at hissued
  obtain ⟨t, hserves⟩ := Reached.serves_defined .start gauged_isUnmanaged (by decide)
    gaugedState_ids (by rw [hissued]; exact Nat.one_pos)
  exact ⟨t, gaugedState_eval.2.1.symm.trans hserves.table, hserves⟩

end Admin

end RowPolicy
