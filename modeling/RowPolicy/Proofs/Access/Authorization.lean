import RowPolicy.Proofs.Access.Writing

/-!
# What authorizes a new row

In every state of a run a create that succeeds has stored a row that its rule permits, as the
database stands with the row in it. Where no claim of the rule reads the guarded table, this is as
the database stood before. A claim that does read it may count the new row itself.
-/

namespace RowPolicy

open Store

/-! ### Creates that succeed -/

/-- A create succeeds if its guard is found, the row can be stored and the conditions are met. -/
lemma Client.create_of_guard {c : Client} {q : Request} {db : Database} {row : Json.Fields}
    {columns : List String} {conditions : List RenderedCondition}
    (hguard : q.createGuard db = .ok (columns, conditions))
    (h : ((q.insertRow db columns row).toOption.any fun result =>
      (q.judge result.1 (result.2.lastRowId.getD c.lastRowId) conditions).isOk) = true) :
    ∃ c' db' id, c.create q db row = (c', .ok (db', id)) := by
  cases hinsert : q.insertRow db columns row with
  | error e => simp [hinsert, Except.toOption] at h
  | ok result =>
    obtain ⟨db', effect⟩ := result
    rw [hinsert] at h
    have hjudge := isOk_unit.mp (show (q.judge db' (effect.lastRowId.getD c.lastRowId)
      conditions).isOk = true from h)
    refine ⟨{ c with lastRowId := effect.lastRowId.getD c.lastRowId }, db',
      effect.lastRowId.getD c.lastRowId, ?_⟩
    rw [create_inserted hguard hinsert, hjudge]
    rfl

/-- The table, the condition and the reason that a request is refused with. -/
def Accessed.refusal? {α : Type} : Accessed α → Option (String × String × String)
  | .error (.unauthorized table condition reason) => some (table, condition, reason)
  | _ => none

lemma Accessed.refusal?_eq_some {α : Type} {r : Accessed α} {table condition reason : String}
    (h : refusal? r = some (table, condition, reason)) :
    r = .error (.unauthorized table condition reason) := by
  unfold refusal? at h
  split at h
  · cases h
    rfl
  · cases h

namespace Admin

variable {n : Naming} {ids : Nat → Uuid} {user : Database} {past : List State} {x : State}

def members : Database :=
  { tables := [{ name := "m", columns := [{ name := "p", type := "TEXT" },
      { name := "g", type := "TEXT" }] }] }

def membersRead : Rule := ⟨"m", .read, [], none⟩

/-- A rule by which a member of a team may add others to it. -/
def membersCreate : Rule := ⟨"m", .create, [], some (.membership "g" "k")⟩

def membersState : State :=
  (Call.applyDocument ⟨[teams], [membersRead, membersCreate]⟩).perform
    ⟨⟨"tg_"⟩, Uuid.nth, default⟩ false ⟨(Admin.start false members).1, 0, {}⟩

/-- A request of a principal who is a member of no team. -/
def membersRequest : Request :=
  Client.ask ⟨false, 0⟩ membersState.db ⟨some "eve"⟩ "m" false

def membersConditions : List RenderedCondition :=
  membersCreate.guardConditions.map fun c =>
    ⟨c.label, Naming.conditionReason c, Naming.fragment ⟨"tg_"⟩ (Sql.quoteName "m") c.fragment⟩

lemma members_isUnmanaged : members.IsUnmanaged := by decide

lemma membersState_reached : Reached ⟨"tg_"⟩ Uuid.nth members
    [⟨(Admin.start false members).1, 0, {}⟩] membersState :=
  .call .start (by decide) false _

lemma membersState_eval : membersState.issued = 3 ∧
    membersState.db.table? "m" = members.table? "m" ∧
    (((membersState.db.binder true).claimRows membersState.db ⟨[], some "eve"⟩
      "tg_claim_k").rows.isEmpty) = true ∧
    ((membersRequest.insertRow membersState.db ["p", "g"]
      [("p", .str "eve"), ("g", .str "a")]).toOption.any fun result =>
        (membersRequest.judge result.1 (result.2.lastRowId.getD 0) membersConditions).isOk) =
          true ∧
    ((membersRequest.insertRow membersState.db ["p", "g"]
      [("p", .str "bob"), ("g", .str "a")]).toOption.bind fun result =>
        (membersRequest.judge result.1 (result.2.lastRowId.getD 0) membersConditions).refusal?) =
          some ("m", "g", "is not among the principal's 'k' entries") := by
  set_option maxRecDepth 100000 in decide +kernel

lemma membersState_ids : Set.InjOn Uuid.nth (Set.Iio membersState.issued) :=
  Uuid.injOn_nth (by rw [membersState_eval.1]; omega)

lemma membersState_policy : membersState.policy =
    ((Policy.setClaim {} teams).setRule membersRead).setRule membersCreate := by
  unfold membersState
  exact Call.perform_policy (by rw [← membersState, membersState_eval.1]; decide)

lemma membersCreate_mem : membersCreate ∈ membersState.policy.rules := by
  rw [membersState_policy]
  exact List.mem_cons_self

lemma membersState_serves : ∃ t, members.table? "m" = some t ∧
    Naming.Serves ⟨"tg_"⟩ membersState.db membersCreate membersCreate t := by
  obtain ⟨d, t, hserves⟩ := membersState_reached.exists_serves members_isUnmanaged
    membersState_ids membersCreate_mem
  obtain rfl : d = membersCreate := by obtain rfl | rfl := hserves.same <;> rfl
  exact ⟨t, membersState_eval.2.1.symm.trans hserves.table, hserves⟩

lemma membersState_create : ∃ client db id,
    (Client.refresh ⟨false, 0⟩ membersState.db).create membersRequest membersState.db
      [("p", .str "eve"), ("g", .str "a")] = (client, .ok (db, id)) := by
  obtain ⟨t, htable, hserves⟩ := membersState_serves
  cases htable
  have hguard : membersRequest.createGuard membersState.db = .ok (["p", "g"], membersConditions) :=
    hserves.createGuard_eq (membersState_reached.ask_ready members_isUnmanaged membersState_ids
      ⟨false, 0⟩ ⟨some "eve"⟩ "m" false) rfl rfl
  exact Client.create_of_guard hguard membersState_eval.2.2.2.1

lemma members_namesRowId : ∀ t, membersState.db.table? "m" = some t → t.NamesRowId := by
  intro t ht
  obtain rfl := Option.some.inj (ht.symm.trans membersState_eval.2.1)
  intro i hi
  cases hi

end Admin

end RowPolicy
