import RowPolicy.Proofs.Access.Denial

/-!
# Rows with supplied values

A fetch that succeeds yields the rows that equal the supplied values. Such a row is visible exactly
if its stored values pass the checks that the supplied values have passed.
-/

namespace RowPolicy.Admin

variable {n : Naming} {ids : Nat → Uuid} {user : Database} {past : List State} {x : State}

/-- A fetch that succeeds yields the rows that equal the supplied values, and a read the rows that
the rule permits. A fetched row is visible exactly if its stored values pass the checks that the
supplied values have passed; if all fetched rows are, they are among the visible ones. The rule
counts as it was given or as it is read back. -/
theorem fetch_of_reached {r : Rule} {params : Json.Fields} {records : List Json.Fields}
    {client : Client} {principal : Principal} {busy : Bool} (hu : user.IsUnmanaged)
    (hcolumns : ∀ t ∈ user.tables, t.columns ≠ []) (h : Reached n ids user past x)
    (hids : Set.InjOn ids (Set.Iio x.issued)) (hr : r ∈ x.policy.rules)
    (hread : r.operation = .read)
    (hfetch : (client.ask x.db principal r.table busy).fetch x.db params = .ok records) :
    ∃ t d a, x.db.table? r.table = some t ∧ (d = r ∨ d = r.reread) ∧
      d.accessor t.shape = .ok a ∧
      let q := client.ask x.db principal r.table busy
      let w := q.surroundings x.db n
      let fetched := t.rows.filter fun row => a.selects (q.given params) (t.values row)
      records = fetched.map (t.shownRow r.projection) ∧
      q.read x.db = .ok ((t.permitted d w).map (t.shownRow r.projection)) ∧
      (∀ c ∈ a.checks, c.Accepts w .none (q.given params c.column)) ∧
      (∀ row ∈ fetched, row ∈ t.permitted d w ↔ ∀ c ∈ a.checks,
        c.Accepts w ((t.values row).affinity c.column) ((t.values row).cell c.column)) ∧
      ((∀ row ∈ fetched, row ∈ t.permitted d w) → fetched.Sublist (t.permitted d w)) := by
  obtain ⟨d, t, hserves⟩ := h.exists_serves hu hids hr
  have hfilled := h.columns_ne_nil hu hcolumns hids hserves
  have hready := h.ask_ready hu hids client principal r.table busy
  have hshow := hserves.canShow hfilled
  obtain ⟨f, -, hnone⟩ | ⟨a, record, ha, -, -⟩ := hserves.accessor_cases hready rfl hread
  · -- Without an accessor there is nothing to fetch through.
    obtain ⟨_, _, _, _, _, hsome, -⟩ := Request.fetch_eq_ok hfetch
    cases hnone.symm.trans hsome
  have hserved := hserves.servesFetch hfilled hready rfl hread ha
  obtain ⟨haccepts, hresolves, hrecords⟩ := hserved.fetched hfetch
  refine ⟨t, d, a, hserves.table, hserves.same, ha, ?_, ?_, haccepts, fun row hrow => ?_,
    fun hall => ?_⟩
  · rw [hrecords, ← hserves.projection_eq]
    exact List.map_congr_left fun row _ => hshow.record_eq_shownRow row
  · rw [← hserves.projection_eq]
    exact hserved.read_eq_permitted hshow hresolves
  · obtain ⟨hmem, hselects⟩ := List.mem_filter.mp hrow
    rw [Table.mem_permitted, hserved.permits_iff hselects]
    exact and_iff_right hmem
  · refine filter_sublist_filter fun row hmem hselects => ?_
    exact (List.mem_filter.mp (hall row (List.mem_filter.mpr ⟨hmem, hselects⟩))).2

/-! ### A supplied value that is stored as another one -/

/-- A table whose only row belongs to principal 1. -/
def owned : Database :=
  { tables := [{ name := "t", columns := [{ name := "owner", type := "INTEGER" }],
                 rows := [⟨1, [.int 1]⟩] }] }

def ownedRule : Rule := ⟨"t", .read, [], some (.identityEq "owner")⟩

def ownedAccessor : Accessor := ⟨"t", [], [.check ⟨"owner", .principal⟩]⟩

def ownedState : State :=
  (Call.defineRule ownedRule).perform ⟨⟨"tg_"⟩, Uuid.nth, default⟩ false
    ⟨(Admin.start false owned).1, 0, {}⟩

def ownedRequest : Request := Client.ask ⟨false, 0⟩ ownedState.db ⟨some "01"⟩ "t" false

lemma owned_isUnmanaged : owned.IsUnmanaged := by decide

lemma ownedState_reached : Reached ⟨"tg_"⟩ Uuid.nth owned
    [⟨(Admin.start false owned).1, 0, {}⟩] ownedState :=
  .call .start (by decide) false _

lemma ownedState_eval : ownedState.issued = 1 ∧
    ownedState.db.table? "t" = owned.table? "t" ∧
    (ownedState.db.select true ⟨[], some "01"⟩ (Sql.selectAll "tg_read_t")).toOption.map
      Prod.snd = some [] ∧
    (ownedState.db.select true ⟨[.text "01"], some "01"⟩
      (Naming.renderCheck ⟨"tg_"⟩ ⟨"owner", .principal⟩).sql).toOption.map Prod.snd =
        some [[.int 1]] ∧
    (ownedState.db.select true ⟨[.text "01"], some "01"⟩
      (Naming.accessorQuery ⟨"tg_"⟩ ownedAccessor)).toOption =
        some (["owner"], [[.int 1]]) := by
  set_option maxRecDepth 100000 in decide +kernel

lemma ownedState_ids : Set.InjOn Uuid.nth (Set.Iio ownedState.issued) :=
  Uuid.injOn_nth (by rw [ownedState_eval.1]; omega)

lemma ownedRule_mem : ownedRule ∈ ownedState.policy.rules := by
  have hpolicy : ownedState.policy = Policy.setRule {} ownedRule := by
    unfold ownedState
    exact Call.perform_policy (by rw [← ownedState, ownedState_eval.1]; decide)
  rw [hpolicy]
  exact List.mem_singleton.mpr rfl

lemma ownedState_serves : ∃ t, owned.table? "t" = some t ∧
    Naming.Serves ⟨"tg_"⟩ ownedState.db ownedRule ownedRule t := by
  obtain ⟨d, t, hserves⟩ := ownedState_reached.exists_serves owned_isUnmanaged ownedState_ids
    ownedRule_mem
  obtain rfl : d = ownedRule := by obtain rfl | rfl := hserves.same <;> rfl
  exact ⟨t, ownedState_eval.2.1.symm.trans hserves.table, hserves⟩

lemma ownedRequest_ready : ownedRequest.ready = true :=
  ownedState_reached.ask_ready owned_isUnmanaged ownedState_ids ⟨false, 0⟩ ⟨some "01"⟩ "t" false

lemma ownedRequest_fetch : ownedRequest.fetch ownedState.db [("owner", .str "01")] =
    .ok [[("owner", .int 1)]] := by
  obtain ⟨t, htable, hserves⟩ := ownedState_serves
  cases htable
  obtain ⟨f, hf, -⟩ | ⟨a, record, ha, hrecord, hbody⟩ :=
    hserves.accessor_cases ownedRequest_ready rfl rfl
  · cases hf
  obtain rfl : ownedAccessor = a := Except.ok.inj ha
  obtain ⟨-, -, -, hcheck, hquery⟩ := ownedState_eval
  have hholds : ownedRequest.holds ownedState.db
      (Naming.renderCheck ⟨"tg_"⟩ ⟨"owner", .principal⟩).sql [.text "01"] = .ok true := by
    obtain ⟨⟨names, rows⟩, hselect, hrows⟩ := Option.map_eq_some_iff.mp hcheck
    cases hrows
    exact Request.holds_eq_true.mpr
      ⟨names, [.int 1], [], 1, toOption_eq_some.mp hselect, rfl, by decide⟩
  rw [Request.fetch_eq_of_artifact hrecord hbody]
  refine bind_eq_ok.mpr ⟨(), ?_, bind_eq_ok.mpr ⟨[.text "01"], rfl, ?_⟩⟩
  · exact bind_eq_ok.mpr ⟨.text "01", rfl, bind_eq_ok.mpr ⟨true, hholds, rfl⟩⟩
  · exact Request.select_eq_ok.mpr ⟨_, _, toOption_eq_some.mp hquery, rfl⟩

theorem fetch_of_reached_owned : owned.IsUnmanaged ∧ ownedRule ∈ ownedState.policy.rules ∧
    ∃ t d a, ownedState.db.table? "t" = some t ∧ (d = ownedRule ∨ d = ownedRule.reread) ∧
      d.accessor t.shape = .ok a ∧
      ownedRequest.fetch ownedState.db [("owner", .str "01")] =
        .ok ((t.rows.filter fun row => a.selects
          (ownedRequest.given [("owner", .str "01")]) (t.values row)).map (t.shownRow [])) := by
  obtain ⟨t, d, a, htable, hd, ha, hrecords, -⟩ := fetch_of_reached owned_isUnmanaged (by decide)
    ownedState_reached ownedState_ids ownedRule_mem rfl ownedRequest_fetch
  exact ⟨owned_isUnmanaged, ownedRule_mem, t, d, a, htable, hd, ha,
    ownedRequest_fetch.trans (congrArg Except.ok hrecords)⟩

/-- A fetch can show a row that a read hides: the value `'01'` is that of the principal, and it
equals the stored number 1, which is not. -/
theorem fetch_shows_hidden_row :
    Reached ⟨"tg_"⟩ Uuid.nth owned [⟨(Admin.start false owned).1, 0, {}⟩] ownedState ∧
    ownedRule ∈ ownedState.policy.rules ∧
    ownedRequest.fetch ownedState.db [("owner", .str "01")] = .ok [[("owner", .int 1)]] ∧
    ownedRequest.read ownedState.db = .ok [] := by
  refine ⟨ownedState_reached, ownedRule_mem, ownedRequest_fetch, ?_⟩
  obtain ⟨t, htable, hserves⟩ := ownedState_serves
  cases htable
  rw [(hserves.servesRead (by decide) ownedRequest_ready rfl rfl).read_eq_view]
  exact Request.select_eq_nil ownedState_eval.2.2.1

end RowPolicy.Admin
