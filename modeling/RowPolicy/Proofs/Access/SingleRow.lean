import RowPolicy.Proofs.Access.Addressing
import RowPolicy.Proofs.Access.Authorization

/-!
# Writes of single rows

An update or a deletion by a declared key touches the one permitted row that has the key, and if
there is none, it fails in one way whatever the reason. Without a declared key the row id is the
key, and it is what the conditions of a create are checked for; both are right as long as no column
hides the row id.
-/

namespace RowPolicy

open Sql

/-! ### Guards of rules -/

/-- The condition of a rule for writing is true for the rows that the rule permits to write. -/
lemma Rule.filter_never_isTrue {r : Rule} {w : Surroundings} {row : RowValues}
    (h : r.operation ≠ .read) : (r.filter .never).IsTrue w row ↔ r.Permits w row := by
  unfold filter Permits
  cases r.predicate with
  | none => exact iff_of_false nofun h
  | some p => exact Predicate.lowered_isTrue

lemma Client.Call.after_of_error {c : Client} {q : Request} {db : Database} {call : Client.Call}
    {e : AccessError} (h : call.answer c q db = .error e) : call.after c q db = db := by
  rw [after, h]

namespace Naming.Serves

variable {n : Naming} {q : Request} {db : Database} {r d : Rule} {t : Table}

/-- The guard of a rule for updates or deletions restricts them by the key of the table. -/
lemma restricts (h : n.Serves db r d t) (hready : q.ready = true) (hq : q.table = r.table)
    (hrestrict : r.operation = .update ∨ r.operation = .delete) :
    ∃ key, t.shape.keyName? = some key ∧
      n.Restricts q db r.operation t key (d.filter .never) := by
  obtain ⟨key, hkey, hguard⟩ := h.restrictGuard_eq hready hq hrestrict
  exact ⟨key, hkey, {
    guard := hguard
    finite := Rule.filter_isFinite h.validated trivial
    table := hq ▸ h.table
    name := h.name.trans hq.symm
    wellFormed := h.wellFormed
    hasKey := Table.has_keyName h.wellFormed hkey
    closed := h.closed }⟩

lemma filter_resolves_iff (h : n.Serves db r d t) :
    (d.filter .never).Resolves (db.binder true) n (t.scope t.name) ↔
      ∀ l ∈ d.lookups, (db.binder true).Knows n l := by
  obtain ⟨catalog, hresolves⟩ := h.resolves
  exact Rule.filter_resolves_of h.wellFormed rfl hresolves trivial

/-- A guard lets a request reach the permitted rows with the key. -/
lemma reaches_iff (h : n.Serves db r d t)
    (hrestrict : r.operation = .update ∨ r.operation = .delete) {key : String} {x : Cell}
    {row : Row} :
    q.Reaches n db t key (d.filter .never) x row ↔
      t.HasKey key x row ∧ d.Permits (q.surroundings db n) (t.values row) := by
  refine and_congr_right fun _ => Rule.filter_never_isTrue ?_
  rw [h.operation_eq]
  rintro hread
  obtain hop | hop := hrestrict <;> cases hop.symm.trans hread

end Naming.Serves

namespace Admin

variable {n : Naming} {ids : Nat → Uuid} {user : Database} {past : List State} {x : State}

/-! ### Declared keys -/

/-- Entries with a number as key. The table has a column with the name of the row id. -/
def ledgerTable : Table :=
  { name := "t", columns := [{ name := "id", type := "INTEGER" },
      { name := "rowid", type := "TEXT" }, { name := "owner", type := "TEXT" }], key := ["id"],
    rows := [⟨1, [.int 1, .text "2", .text "mallory"]⟩] }

def ledger : Database := { tables := [ledgerTable] }

def ledgerRead : Rule := ⟨"t", .read, [], none⟩

/-- A rule by which everyone may create and update their own entries. -/
def ledgerWrite (operation : Operation) : Rule := ⟨"t", operation, [], some (.identityEq "owner")⟩

/-- A rule with a literal that has a null character. -/
def ledgerDelete : Rule := ⟨"t", .delete, [], some (.literalEq "owner" (.text "a\x00b"))⟩

def ledgerState : State :=
  (Call.applyDocument
    ⟨[], [ledgerRead, ledgerWrite .create, ledgerWrite .update, ledgerDelete]⟩).perform
    ⟨⟨"tg_"⟩, Uuid.nth, default⟩ false ⟨(Admin.start false ledger).1, 0, {}⟩

def ledgerRequest : Request :=
  Client.ask ⟨false, 0⟩ ledgerState.db (.user "mallory") "t" false

def ledgerRow : Row := ⟨2, [.int 2, .text "x", .text "alice"]⟩

def ledgerConditions : List RenderedCondition :=
  (ledgerWrite .create).guardConditions.map fun c =>
    ⟨c.label, Naming.conditionReason c, Naming.fragment ⟨"tg_"⟩ (quoteName "t") c.fragment⟩

lemma ledgerState_eval : ledgerState.issued = 4 ∧
    ledgerState.db.table? "t" = some ledgerTable ∧
    ((ledgerRequest.insertRow ledgerState.db ["id", "rowid", "owner"]
      [("id", .int 2), ("rowid", .str "x"), ("owner", .str "alice")]).toOption.any fun result =>
        result.1.table? "t" == some (ledgerTable.withRow ledgerRow) &&
          (ledgerRequest.judge result.1 (result.2.lastRowId.getD 0) ledgerConditions).isOk) =
            true := by
  set_option maxRecDepth 100000 in decide +kernel

lemma ledger_isUnmanaged : ledger.IsUnmanaged := by decide

lemma ledgerState_reached : Reached ⟨"tg_"⟩ Uuid.nth ledger
    [⟨(Admin.start false ledger).1, 0, {}⟩] ledgerState :=
  .call .start (by decide) false _

lemma ledgerState_ids : Set.InjOn Uuid.nth (Set.Iio ledgerState.issued) :=
  Uuid.injOn_nth (by rw [ledgerState_eval.1]; omega)

lemma ledgerState_rules : ledgerState.policy.rules =
    [ledgerDelete, ledgerWrite .update, ledgerWrite .create, ledgerRead] := by
  have hpolicy : ledgerState.policy = (((Policy.setRule {} ledgerRead).setRule
      (ledgerWrite .create)).setRule (ledgerWrite .update)).setRule ledgerDelete := by
    unfold ledgerState
    exact Call.perform_policy (by rw [← ledgerState, ledgerState_eval.1]; decide)
  rw [hpolicy]
  rfl

lemma ledgerTable_isLawful : ledgerTable.IsLawful := by
  refine ⟨fun row hrow => ?_, List.pairwise_singleton _ _⟩
  obtain rfl := List.mem_singleton.mp hrow
  refine ⟨rfl, fun i c y hc hy => ⟨y, ?_⟩, by decide, by decide⟩
  match i with
  | 0 | 1 | 2 =>
    cases hc
    cases hy
    decide
  | _ + 3 => cases hc

end Admin

end RowPolicy
