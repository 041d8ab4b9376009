import RowPolicy.Proofs.Access.Authorization
import RowPolicy.Proofs.Access.Sessions

/-!
# Confinement of requests

The store is in the same database as the guarded tables, and still no request reaches it: rules are
only made for tables beside the store, and a request that writes changes the table of its rule and
nothing else.
-/

namespace RowPolicy

open Store

namespace Database

variable {db db' : Database} {t u : Table} {name : String}

lemma mem_setTable_of_ne (h : u.name ≠ t.name) : u ∈ (db.setTable t).tables ↔ u ∈ db.tables := by
  rw [setTable, List.mem_map]
  constructor
  · rintro ⟨v, hv, heq⟩
    split at heq
    · exact absurd (congrArg Table.name heq).symm h
    · exact heq ▸ hv
  · exact fun hu => ⟨u, hu, if_neg (by simpa using h)⟩

/-- Only one table differs between two databases, and that in its rows. -/
structure DiffersAt (name : String) (db db' : Database) : Prop where
  schema : db'.schema = db.schema
  others : ∀ u : Table, u.name ≠ name → (u ∈ db'.tables ↔ u ∈ db.tables)

/-- Changing rows of a table that has its name exactly leaves all other tables. -/
lemma Rewrites.differsAt (h : db.Rewrites name db') (hdistinct : db.HasDistinctTables)
    (hname : ∀ t, db.table? name = some t → t.name = name) : db.DiffersAt name db' := by
  obtain ⟨t, t', ht, hchanges, rfl⟩ := h
  have hname' : t'.name = name := (name_of_schema hchanges.schema).trans (hname t ht)
  refine ⟨hdistinct.schema_setTable ((hname t ht).symm ▸ ht) hchanges.schema, fun u hu => ?_⟩
  exact mem_setTable_of_ne (hname' ▸ hu)

end Database

namespace Admin

variable {n : Naming} {ids : Nat → Uuid} {user : Database} {past : List State} {x : State}
  {cs : List Client} {c : Client}

lemma refusal_ne_ok {call : Client.Call} {table : String} {db db' : Database}
    {answer : Client.Answer} (hwrite : call.operation ≠ .read) :
    call.refusal table db ≠ .ok (db', answer) := by
  cases call with
  | read | fetch _ => exact absurd rfl hwrite
  | create _ | update _ _ | delete _ => exact nofun

/-- A call that writes has a rule, which is about a table beside the store. -/
lemma Reached.differsAt_of_answer (h : Reached n ids user past x) (hu : user.IsUnmanaged)
    (hids : Set.InjOn ids (Set.Iio x.issued)) {principal : Principal} {table : String}
    {busy : Bool} {call : Client.Call} {db' : Database} {answer : Client.Answer}
    (hwrite : call.operation ≠ .read)
    (hanswer : call.answer (c.refresh x.db) (c.ask x.db principal table busy) x.db =
      .ok (db', answer)) :
    Store.hasRule x.db ⟨table, call.operation⟩ = true ∧ table ∉ tableNames ∧
      x.db.DiffersAt table db' := by
  cases hrule : Store.hasRule x.db ⟨table, call.operation⟩ with
  | false =>
    rw [Client.Call.answer_of_none fun kind => h.artifact_eq_none hu hids hrule rfl kind] at hanswer
    exact absurd hanswer (refusal_ne_ok hwrite)
  | true =>
    obtain ⟨r, hr, hkey⟩ := (h.hasRule_iff hu hids).mp hrule
    obtain ⟨d, t, hserves⟩ := h.exists_serves hu hids hr
    obtain rfl : r.table = table := congrArg RuleKey.table hkey
    have hfull : ∀ u, x.db.table? r.table = some u → u.IsFull := fun u hu => by
      cases hserves.table.symm.trans hu
      exact hserves.full
    have hname : ∀ u, x.db.table? r.table = some u → u.name = r.table := fun u hu => by
      cases hserves.table.symm.trans hu
      exact hserves.name
    have huser : r.table ∉ tableNames := not_mem_tableNames_of_isUserTable hserves.isUser
    refine ⟨rfl, huser, ?_⟩
    obtain ⟨hread, -⟩ | hrewrites :=
      Client.Call.answer_cases (q := c.ask x.db principal r.table busy) hfull hanswer
    · exact absurd hread hwrite
    · exact hrewrites.differsAt hserves.distinct hname

/-- No request changes the store or a view, whether it succeeds or not. One that writes has a stored
rule for its operation on the table that it names, and changes rows of that table only. -/
theorem confined_of_session (hu : user.IsUnmanaged) (h : Session n ids user cs x)
    (hids : Set.InjOn ids (Set.Iio x.issued)) (hc : c ∈ cs) (principal : Principal)
    (table : String) (busy : Bool) (call : Client.Call) :
    let q := c.ask x.db principal table busy
    let after := call.after (c.refresh x.db) q x.db
    after.views = x.db.views ∧ (∀ name ∈ tableNames, after.table? name = x.db.table? name) ∧
      (call.operation = .read → after = x.db) ∧
      ∀ db' answer, call.operation ≠ .read →
        call.answer (c.refresh x.db) q x.db = .ok (db', answer) →
        Store.hasRule x.db ⟨table, call.operation⟩ = true ∧ table ∉ tableNames ∧
          x.db.DiffersAt table db' := by
  intro q after
  have hread : call.operation = .read → after = x.db := Client.Call.after_of_read
  obtain ⟨rfl, hcs⟩ | ⟨past, hx⟩ := h.cases hu hids
  · have hrefusal : call.answer (c.refresh user) q user = call.refusal table user :=
      Client.Call.answer_of_none fun kind =>
        artifact_unmanaged hu (hcs c hc) principal table busy kind _
    have hsame : after = user := Client.Call.after_of_refusal hrefusal
    refine ⟨by rw [hsame], fun name _ => by rw [hsame], hread, fun db' answer hwrite hanswer => ?_⟩
    exact absurd (hrefusal.symm.trans hanswer) (refusal_ne_ok hwrite)
  · have hafter : after = x.db ∨ RowsWritten x.db after :=
      hx.request_cases hu hids principal table busy call
    refine ⟨?_, fun name hname => ?_, hread, fun db' answer hwrite hanswer =>
      hx.differsAt_of_answer hu hids hwrite hanswer⟩
    · obtain heq | hwritten := hafter
      · rw [heq]
      · exact (congrArg Database.views hwritten.schema : after.schema.views = x.db.schema.views)
    · obtain heq | hwritten := hafter
      · rw [heq]
      · exact hwritten.store name hname

lemma membersState_session : Session ⟨"tg_"⟩ Uuid.nth members [⟨false, 0⟩] membersState := by
  have hconnect : Client.connect members = ⟨false, 0⟩ := by
    rw [Client.connect, isMigrated_eq_false members_isUnmanaged]
  have hsession : Session ⟨"tg_"⟩ Uuid.nth members [Client.connect members] membersState :=
    .call (.opened (.connected .unopened) false) (by decide) false _
  rwa [hconnect] at hsession

/-- A row is added to a table that has a rule for it, and only that table changes. -/
theorem confined_of_session_members : members.IsUnmanaged ∧
    Session ⟨"tg_"⟩ Uuid.nth members [⟨false, 0⟩] membersState ∧
    ∃ db' answer,
      (Client.Call.create [("p", .str "eve"), ("g", .str "a")]).answer
        (Client.refresh ⟨false, 0⟩ membersState.db) membersRequest membersState.db =
          .ok (db', answer) ∧
      Store.hasRule membersState.db ⟨"m", .create⟩ = true ∧
      membersState.db.DiffersAt "m" db' := by
  obtain ⟨client, db, id, hdone⟩ := membersState_create
  have hanswer : (Client.Call.create [("p", .str "eve"), ("g", .str "a")]).answer
      (Client.refresh ⟨false, 0⟩ membersState.db) membersRequest membersState.db =
        .ok (db, .created id) := by
    rw [Client.Call.answer, hdone]
    rfl
  obtain ⟨-, -, -, hwrites⟩ := confined_of_session members_isUnmanaged membersState_session
    membersState_ids List.mem_cons_self ⟨some "eve"⟩ "m" false
    (.create [("p", .str "eve"), ("g", .str "a")])
  obtain ⟨hrule, -, hdiffers⟩ := hwrites db (.created id) (by rintro ⟨⟩) hanswer
  exact ⟨members_isUnmanaged, membersState_session, db, .created id, hanswer, hrule, hdiffers⟩

end Admin

end RowPolicy
