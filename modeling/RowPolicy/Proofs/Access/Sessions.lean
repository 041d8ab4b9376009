import RowPolicy.Proofs.Access.Denial

/-!
# Default deny

Administration is opened and called, and clients connect and make their requests, in any order. In
every state that this leads to, a request without a stored rule is refused and changes nothing; with
a stored rule it is never denied, and a fetch is unavailable exactly if the rule has a disjunction.
All of this needs one stem for the names of the artifacts: with two of them the artifact of a claim
can take the place of that of a rule.
-/

namespace RowPolicy

open Store

namespace Admin

/-! ### Sessions -/

/-- The states of sessions, with all the states that their clients have been in. -/
inductive Session (n : Naming) (ids : Nat → Uuid) (user : Database) : List Client → State → Prop
  | unopened : Session n ids user [] ⟨user, 0, {}⟩
  | opened {cs : List Client} {x : State} (h : Session n ids user cs x) (busy : Bool) :
      Session n ids user cs { x with db := (Admin.start busy x.db).1 }
  | call {cs : List Client} {x : State} (h : Session n ids user cs x) {now : Instant}
      (hnow : now.IsRegular) (busy : Bool) (call : Call) :
      Session n ids user cs (call.perform ⟨n, ids, now⟩ busy x)
  | connected {cs : List Client} {x : State} (h : Session n ids user cs x) :
      Session n ids user (Client.connect x.db :: cs) x
  | request {cs : List Client} {x : State} {c : Client} (h : Session n ids user cs x) (hc : c ∈ cs)
      (principal : Principal) (table : String) (busy : Bool) (call : Client.Call) :
      Session n ids user
        (call.client (c.refresh x.db) (c.ask x.db principal table busy) x.db :: cs)
        { x with db := call.after (c.refresh x.db) (c.ask x.db principal table busy) x.db }

variable {n : Naming} {ids : Nat → Uuid} {user : Database} {past : List State} {x : State}
  {cs : List Client} {c : Client}

/-! ### Before the store is there -/

lemma isMigrated_eq_false (hu : user.IsUnmanaged) : Store.isMigrated user = false := by
  have hfree := hu.free ruleTable.name (by decide)
  have hnone : (user.tables.any fun t => t.name == ruleTable.name) = false := by
    refine Bool.eq_false_iff.mpr fun hany => ?_
    obtain ⟨t, ht, hname⟩ := List.any_eq_true.mp hany
    have hsome : (user.table? ruleTable.name).isSome = true :=
      List.find?_isSome.mpr ⟨t, ht, by rw [beq_iff_eq.mp hname, Text.sameName_self]⟩
    rw [Database.hasObject, hsome, Bool.true_or] at hfree
    cases hfree
  rw [Store.isMigrated, tableNames, Store.tables, List.map_cons, List.all_cons, hnone,
    Bool.false_and]

lemma table?_eq_none {name : String} (hu : user.IsUnmanaged) (hname : name ∈ tableNames) :
    user.table? name = none := by
  have hfree := hu.free name hname
  rw [Database.hasObject, Bool.or_eq_false_iff, Option.isSome_eq_false_iff,
    Option.isNone_iff_eq_none] at hfree
  exact hfree.1

lemma hasRule_eq_false (hu : user.IsUnmanaged) (k : RuleKey) : Store.hasRule user k = false := by
  rw [Store.hasRule, table?_eq_none hu (by decide)]

lemma Call.perform_unmanaged {s : Setting} {busy : Bool} (hu : user.IsUnmanaged) (call : Call) :
    call.perform s busy ⟨user, 0, {}⟩ = ⟨user, 0, {}⟩ := by
  have hload : ∀ catalog, loadCatalog s.naming user ≠ .ok catalog := fun catalog hload => by
    obtain ⟨claims, hclaims, -⟩ := bind_eq_ok.mp hload
    have hclaims := ofStore_eq_ok.mp hclaims
    rw [Store.claims, Store.table, table?_eq_none hu (by decide)] at hclaims
    cases hclaims
  unfold Call.perform
  split
  next db issued u hcall =>
    obtain ⟨catalog, _, hcatalog, -⟩ := transaction_eq_ok hcall
    exact absurd hcatalog (hload catalog)
  next => rfl

lemma refresh_unmanaged (hu : user.IsUnmanaged) : c.refresh user = c := by
  rw [Client.refresh, isMigrated_eq_false hu, Bool.or_false]

lemma artifact_unmanaged (hu : user.IsUnmanaged) (hc : c.ready = false) (principal : Principal)
    (table : String) (busy : Bool) (kind : ArtifactKind) (operation : Operation) :
    (c.ask user principal table busy).artifact user kind operation = .ok none := by
  rw [Request.artifact, Client.ask, refresh_unmanaged hu, Client.request, if_neg (by simp [hc])]

/-! ### With the store -/

/-- Opening administration again changes nothing. -/
lemma start_of_contains {db : Database} {contents : Contents} (h : Contains db contents)
    (busy : Bool) : (Admin.start busy db).1 = db := by
  have habsent : ∀ (T : Table) {t : Table}, db.table? T.name = some t →
      createAbsent db T = .ok db := fun T t ht => by
    rw [createAbsent, Database.hasObject, ht, Option.isSome_some, Bool.true_or, if_pos rfl]
  obtain ⟨tr, htr, -⟩ := h.rules.holds
  obtain ⟨tk, htk, -⟩ := h.claims.holds
  obtain ⟨ta, hta, -⟩ := h.artifacts.holds
  have hcreated : Store.tables.foldlM createAbsent db = .ok db := by
    rw [Store.tables, List.foldlM_cons, habsent ruleTable htr, ok_bind, List.foldlM_cons,
      habsent claimTable htk, ok_bind, List.foldlM_cons, habsent artifactTable hta, ok_bind,
      List.foldlM_nil]
    rfl
  rw [Admin.start, h.isMigrated, Bool.not_true, Bool.and_false, if_neg Bool.false_ne_true,
    migrate, hcreated]

lemma Reached.hasRule_iff {k : RuleKey} (h : Reached n ids user past x) (hu : user.IsUnmanaged)
    (hids : Set.InjOn ids (Set.Iio x.issued)) :
    Store.hasRule x.db k = true ↔ ∃ r ∈ x.policy.rules, r.key = k := by
  obtain ⟨catalog, c, hpolicy, hsound⟩ := h.exists_contents hu hids
  rw [hsound.defined.stored.hasRule_iff, ← hpolicy]
  simp [policyOf]

lemma Reached.rule_eq {r : Rule} {record : RuleRecord} (h : Reached n ids user past x)
    (hu : user.IsUnmanaged) (hids : Set.InjOn ids (Set.Iio x.issued)) (hr : r ∈ x.policy.rules)
    (hrecord : Store.rule x.db r.key = .ok (some record)) : record.body = r.reread := by
  obtain ⟨catalog, c, hpolicy, hsound⟩ := h.exists_contents hu hids
  rw [← hpolicy] at hr
  obtain ⟨b, hb, rfl⟩ := List.mem_map.mp hr
  obtain ⟨hnone, -⟩ | ⟨b', hb', hkey, -, hsome⟩ := hsound.defined.stored.rule_eq_ok.mp hrecord
  · cases hnone
  · cases hsome
    rw [hsound.defined.stored.rules.eq_of_key hb' hb hkey]
    rfl

lemma Reached.artifact_eq_none {table : String} {operation : Operation}
    (h : Reached n ids user past x) (hu : user.IsUnmanaged)
    (hids : Set.InjOn ids (Set.Iio x.issued))
    (hnone : Store.hasRule x.db ⟨table, operation⟩ = false) {q : Request} (hq : q.table = table)
    (kind : ArtifactKind) : q.artifact x.db kind operation = .ok none := by
  obtain ⟨catalog, c, -, hsound⟩ := h.exists_contents hu hids
  have hrules : ∀ r ∈ c.rules, r.body.key ≠ ⟨table, operation⟩ := fun r hr hkey => by
    rw [hsound.defined.stored.hasRule_iff.mpr ⟨r, hr, hkey⟩] at hnone
    cases hnone
  rw [Request.artifact]
  split
  · rw [hq, hsound.findArtifact_eq_none hrules kind]
    rfl
  · rfl

/-- A request leaves the database or writes rows beside the store. -/
lemma Reached.request_cases (h : Reached n ids user past x) (hu : user.IsUnmanaged)
    (hids : Set.InjOn ids (Set.Iio x.issued)) (principal : Principal) (table : String)
    (busy : Bool) (call : Client.Call) :
    let db := call.after (c.refresh x.db) (c.ask x.db principal table busy) x.db
    db = x.db ∨ RowsWritten x.db db := by
  intro db
  cases hrule : Store.hasRule x.db ⟨table, call.operation⟩ with
  | false =>
    exact .inl (Client.Call.after_of_refusal
      (Client.Call.answer_of_none fun kind => h.artifact_eq_none hu hids hrule rfl kind))
  | true =>
    obtain ⟨r, hr, hkey⟩ := (h.hasRule_iff hu hids).mp hrule
    obtain ⟨d, t, hserves⟩ := h.exists_serves hu hids hr
    obtain ⟨catalog, contents, -, hsound⟩ := h.exists_contents hu hids
    have htable : r.table = table := congrArg RuleKey.table hkey
    subst htable
    refine Client.Call.after_cases (fun u hu => ?_) |>.imp_right fun hwrites =>
      rowsWritten_of_rewrites hserves hsound.defined.stored hsound.defined.full hwrites
    cases hserves.table.symm.trans hu
    exact hserves.full

/-! ### States of sessions -/

lemma summarize_issued {α : Type} {step : Work → α → Result (Work × Summary)} {w w' : Work}
    {items : List α} {summaries : List Summary}
    (hstep : ∀ w₁ w₂ a summary, step w₁ a = .ok (w₂, summary) → w₁.issued ≤ w₂.issued)
    (h : summarize step w items = .ok (w', summaries)) : w.issued ≤ w'.issued :=
  summarize_induction (fun _ w₁ => w.issued ≤ w₁.issued) le_rfl
    (fun _ _ _ _ _ _ hdone hone => hdone.trans (hstep _ _ _ _ hone)) h

lemma Call.perform_issued {s : Setting} {busy : Bool} {call : Call} :
    x.issued ≤ (call.perform s busy x).issued := by
  unfold Call.perform
  split
  next db issued u hcall =>
    obtain ⟨catalog, w, -, hsteps, rfl, rfl⟩ := transaction_eq_ok hcall
    change (⟨x.db, catalog, x.issued⟩ : Work).issued ≤ w.issued
    cases call with
    | defineRule r =>
      obtain ⟨_, hsteps⟩ := settled_eq_ok hsteps
      exact defineRule_issued hsteps
    | defineClaim k =>
      obtain ⟨_, hsteps⟩ := settled_eq_ok hsteps
      exact defineClaim_issued hsteps
    | dropRule k =>
      obtain ⟨_, hsteps⟩ := settled_eq_ok hsteps
      exact (dropRule_issued hsteps).ge
    | dropRules table =>
      obtain ⟨_, hsteps⟩ := settled_eq_ok hsteps
      exact (dropRules_issued hsteps).ge
    | dropClaim name =>
      obtain ⟨_, hsteps⟩ := settled_eq_ok hsteps
      exact (dropClaim_issued hsteps).ge
    | rebuild =>
      obtain ⟨_, hsteps⟩ := settled_eq_ok hsteps
      exact (rebuild_issued hsteps).ge
    | applyDocument d =>
      obtain ⟨_, hsteps⟩ := settled_eq_ok hsteps
      obtain ⟨⟨w₁, first⟩, hclaims, hsteps⟩ := bind_eq_ok.mp hsteps
      obtain ⟨⟨w₂, second⟩, hrules, hsteps⟩ := bind_eq_ok.mp hsteps
      cases hsteps
      exact (summarize_issued (fun _ _ _ _ => defineClaim_issued) hclaims).trans
        (summarize_issued (fun _ _ _ _ => defineRule_issued) hrules)
  next => exact le_rfl

/-- In a session either the store is not there and no client has seen it, or the state is one of a
run of administration. -/
lemma Session.cases (h : Session n ids user cs x) (hu : user.IsUnmanaged)
    (hids : Set.InjOn ids (Set.Iio x.issued)) :
    (x = ⟨user, 0, {}⟩ ∧ ∀ c ∈ cs, c.ready = false) ∨ ∃ past, Reached n ids user past x := by
  induction h with
  | unopened => exact .inl ⟨rfl, by simp⟩
  | @opened cs x _ busy ih =>
    obtain ⟨rfl, hcs⟩ | ⟨past, hx⟩ := ih hids
    · cases busy with
      | false => exact .inr ⟨[], .start⟩
      | true =>
        -- While another connection writes, the store is not created.
        refine .inl ⟨?_, hcs⟩
        rw [Admin.start, isMigrated_eq_false hu, Bool.not_false, Bool.and_true, if_pos rfl]
    · obtain ⟨catalog, contents, -, hsound⟩ := hx.exists_contents hu hids
      rw [start_of_contains hsound.defined.stored]
      exact .inr ⟨past, hx⟩
  | @call cs x _ now hnow busy call ih =>
    obtain ⟨rfl, hcs⟩ | ⟨past, hx⟩ := ih (hids.mono (Set.Iio_subset_Iio Call.perform_issued))
    · exact .inl ⟨Call.perform_unmanaged hu call, hcs⟩
    · exact .inr ⟨_, hx.call hnow busy call⟩
  | connected _ ih =>
    refine (ih hids).imp_left ?_
    rintro ⟨rfl, hcs⟩
    exact ⟨rfl, List.forall_mem_cons.mpr ⟨isMigrated_eq_false hu, hcs⟩⟩
  | @request cs x c _ hc principal table busy call ih =>
    obtain ⟨rfl, hcs⟩ | ⟨past, hx⟩ := ih hids
    · -- Without a store there are no artifacts, and every request is refused.
      have hnone := artifact_unmanaged hu (hcs c hc) principal table busy
      refine .inl ⟨?_, List.forall_mem_cons.mpr ⟨?_, hcs⟩⟩
      · rw [Client.Call.after_of_refusal (Client.Call.answer_of_none fun kind => hnone kind _)]
      · rw [refresh_unmanaged hu]
        cases call with
        | create row =>
          rw [Client.Call.client, Client.create_of_none (hnone .writeGuard .create)]
          exact hcs c hc
        | read | fetch _ | update _ _ | delete _ => exact hcs c hc
    · obtain heq | hwritten := hx.request_cases hu hids principal table busy call (c := c)
      · rw [heq]
        exact .inr ⟨past, hx⟩
      · exact .inr ⟨_, hx.write hwritten⟩

/-! ### Default deny -/

/-- Without a stored rule for the operation a request is refused and the database stays as it is.
With one it is never denied, and a fetch is unavailable exactly if the read rule has a
disjunction. -/
theorem answer_of_session (hu : user.IsUnmanaged) (h : Session n ids user cs x)
    (hids : Set.InjOn ids (Set.Iio x.issued)) (hc : c ∈ cs) (principal : Principal)
    (table : String) (busy : Bool) (call : Client.Call) :
    let q := c.ask x.db principal table busy
    let answer := call.answer (c.refresh x.db) q x.db
    (Store.hasRule x.db ⟨table, call.operation⟩ = false →
      answer = call.refusal table x.db ∧ call.after (c.refresh x.db) q x.db = x.db) ∧
    (Store.hasRule x.db ⟨table, call.operation⟩ = true →
      (∀ table operation, answer ≠ .error (.denied table operation)) ∧
      ∃ r ∈ x.policy.rules, r.key = ⟨table, call.operation⟩ ∧
        (∀ record, Store.rule x.db r.key = .ok (some record) → record.body = r.reread) ∧
        ∀ params, call = .fetch params →
          (answer = .error (.accessorUnavailable table) ↔
            r.predicate.any Predicate.hasOr = true)) := by
  intro q answer
  obtain ⟨rfl, hcs⟩ | ⟨past, hx⟩ := h.cases hu hids
  · -- Nobody has opened the store yet.
    have hanswer : answer = call.refusal table user := Client.Call.answer_of_none fun kind =>
      artifact_unmanaged hu (hcs c hc) principal table busy kind _
    refine ⟨fun _ => ⟨hanswer, Client.Call.after_of_refusal hanswer⟩, fun hrule => ?_⟩
    rw [hasRule_eq_false hu] at hrule
    cases hrule
  · refine ⟨fun hrule => ?_, fun hrule => ?_⟩
    · have hanswer : answer = call.refusal table x.db := Client.Call.answer_of_none fun kind =>
        hx.artifact_eq_none hu hids hrule rfl kind
      exact ⟨hanswer, Client.Call.after_of_refusal hanswer⟩
    · obtain ⟨r, hr, hkey⟩ := (hx.hasRule_iff hu hids).mp hrule
      obtain ⟨d, t, hserves⟩ := hx.exists_serves hu hids hr
      have htable : table = r.table := (congrArg RuleKey.table hkey).symm
      have hoperation : call.operation = r.operation := (congrArg RuleKey.operation hkey).symm
      have hready := hx.ask_ready hu hids c principal table busy
      refine ⟨hserves.answer_ne_denied hready htable hoperation, r, hr, hkey,
        fun record hrecord => hx.rule_eq hu hids hr hrecord, ?_⟩
      rintro params rfl
      obtain ⟨hor, hfetch⟩ | ⟨hor, hfetch⟩ :=
        hserves.fetch_cases hready htable hoperation.symm params
      · refine iff_of_true ?_ hor
        change (q.fetch x.db params).map _ = _
        rw [hfetch]
        rfl
      · refine iff_of_false (hfetch.map.ne_unavailable table) ?_
        rw [hor]
        exact Bool.false_ne_true

lemma measuredState_session : Session ⟨"tg_"⟩ Uuid.nth measured
    [Client.connect measuredState.db] measuredState :=
  .connected (.call (.opened .unopened false) (by decide) false _)

theorem answer_of_session_measured : measured.IsUnmanaged ∧
    Store.hasRule measuredState.db ⟨"t", .read⟩ = true ∧
    Store.hasRule measuredState.db ⟨"t", .delete⟩ = false ∧
    let c := Client.connect measuredState.db
    let q := c.ask measuredState.db ⟨some "alice"⟩ "t" false
    (∀ params, (Client.Call.fetch params).answer (c.refresh measuredState.db) q measuredState.db ≠
      .error (.accessorUnavailable "t")) ∧
    ∀ key, (Client.Call.delete key).answer (c.refresh measuredState.db) q measuredState.db =
      .error (.notFound "t") := by
  have hstored := fun k => measuredState_reached.hasRule_iff (k := k) measured_isUnmanaged
    measuredState_ids
  simp only [measuredState_rules, List.mem_singleton, exists_eq_left] at hstored
  have hread : Store.hasRule measuredState.db ⟨"t", .read⟩ = true := (hstored _).mpr rfl
  have hdelete : Store.hasRule measuredState.db ⟨"t", .delete⟩ = false :=
    Bool.eq_false_iff.mpr fun hrule => nomatch (hstored _).mp hrule
  have hanswer := answer_of_session measured_isUnmanaged measuredState_session measuredState_ids
    List.mem_cons_self ⟨some "alice"⟩ "t" false
  refine ⟨measured_isUnmanaged, hread, hdelete, fun params hfetch => ?_, fun key =>
    ((hanswer (.delete key)).1 hdelete).1⟩
  obtain ⟨-, r, hr, -, -, hor⟩ := (hanswer (.fetch params)).2 hread
  rw [measuredState_rules, List.mem_singleton] at hr
  subst hr
  cases (hor params rfl).mp hfetch

/-! ### Two stems -/

def notes : Database :=
  { tables := [{ name := "t", columns := [{ name := "x", type := "TEXT" }] }] }

def notesRead : Rule := ⟨"t", .read, [], some (.or [.identityEq "x"])⟩

/-- The state after the rule was defined with one stem and a claim with another one. -/
def notesState : State :=
  (Call.defineClaim ⟨"read_t", .table "t", "x", "x", []⟩).perform ⟨⟨"a_"⟩, Uuid.nth, default⟩ false
    ((Call.defineRule notesRead).perform ⟨⟨"a_claim_"⟩, Uuid.nth, default⟩ false
      ⟨(Admin.start false notes).1, 0, {}⟩)

lemma notesState_eval : Store.hasRule notesState.db ⟨"t", .read⟩ = true ∧
    Store.isMigrated notesState.db = true ∧
    ∀ kind ∈ [ArtifactKind.readView, .readAccessor],
      (Store.findArtifact notesState.db kind "t" (some .read)).toOption.map Option.isNone =
        some true := by
  set_option maxRecDepth 100000 in decide +kernel

/-- With two stems a stored rule can be without effect: the view of the claim has the name of that
of the rule and takes its place, so a fetch is denied. -/
theorem fetch_denied_with_rule : Store.hasRule notesState.db ⟨"t", .read⟩ = true ∧
    notesRead.predicate.any Predicate.hasOr = true ∧
    ∀ params, (Client.Call.fetch params).answer (Client.connect notesState.db)
      (Client.ask (Client.connect notesState.db) notesState.db ⟨some "u"⟩ "t" false) notesState.db =
        .error (.denied "t" .read) := by
  obtain ⟨hrule, hmigrated, hnone⟩ := notesState_eval
  have hartifact : ∀ kind ∈ [ArtifactKind.readView, .readAccessor],
      (Client.ask (Client.connect notesState.db) notesState.db ⟨some "u"⟩ "t" false).artifact
        notesState.db kind .read = .ok none := fun kind hkind => by
    rw [Request.artifact, Client.ask, Client.refresh, hmigrated, Bool.or_true, Client.request,
      if_pos rfl]
    obtain ⟨o, ho, hempty⟩ := Option.map_eq_some_iff.mp (hnone kind hkind)
    rw [toOption_eq_some.mp ho, Option.isNone_iff_eq_none.mp hempty]
    rfl
  refine ⟨hrule, rfl, fun params => ?_⟩
  rw [Client.Call.answer, Request.fetch_of_none (hartifact .readAccessor (by simp))
    (hartifact .readView (by simp))]
  rfl

end Admin

end RowPolicy
