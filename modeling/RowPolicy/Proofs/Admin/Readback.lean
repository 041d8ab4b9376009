import RowPolicy.Proofs.Admin.Run

/-!
# Rules that are read back

A rule is stored as JSON text. What is read back is the rule with its literals as they are read, and
only if the text is not nested too deep and has no number out of range. A rule is accepted without
regard to this, and from then on neither the rules nor the catalog of a call can be read.
-/

namespace RowPolicy

open Store

/-! ### Rules as they are read back -/

namespace Predicate

mutual

lemma reread_eq_iff (p : Predicate) : p.reread = p ↔ ∀ l ∈ p.literals, l.reread = l := by
  match p with
  | .literalEq column value => simp [reread, literals]
  | .identityEq column => simp [reread, literals]
  | .membership column claim => simp [reread, literals]
  | .propertyCheck column claim property allowed =>
    have hallowed : allowed.map Literal.reread = allowed ↔ ∀ l ∈ allowed, l.reread = l := by
      conv_lhs => rhs; rw [← List.map_id allowed]
      exact List.map_inj_left
    simp [reread, literals, hallowed]
  | .and children => simp only [reread, literals, Predicate.and.injEq, rereadAll_eq_iff children]
  | .or children => simp only [reread, literals, Predicate.or.injEq, rereadAll_eq_iff children]

lemma rereadAll_eq_iff (ps : List Predicate) :
    rereadAll ps = ps ↔ ∀ l ∈ literalsOfAll ps, l.reread = l := by
  match ps with
  | [] => simp [rereadAll, literalsOfAll]
  | p :: rest =>
    rw [rereadAll, literalsOfAll, List.forall_mem_append, List.cons.injEq, reread_eq_iff p,
      rereadAll_eq_iff rest]

end

end Predicate

/-- A rule is read back as it was given exactly if its literals are. -/
lemma Rule.reread_eq_iff {r : Rule} :
    r.reread = r ↔ ∀ p, r.predicate = some p → ∀ l ∈ p.literals, l.reread = l := by
  obtain ⟨table, operation, projection, predicate⟩ := r
  cases predicate with
  | none => simp [reread]
  | some p => simp [reread, Predicate.reread_eq_iff]

/-! ### Rules that are stored -/

namespace Store.Contains

variable {db : Database} {c : Contents} {rules : List Rule}

lemma rules_isOk_iff (hc : Contains db c) (hrules : c.rules.map Stamped.body = rules) :
    (Store.rules db).isOk = true ↔ ∀ r ∈ rules, r.IsReadable := by
  rw [isOk_iff, ← hrules, List.forall_mem_map]
  exact ⟨fun ⟨rs, hrs⟩ => (hc.rules_eq_ok hrs).1, hc.rules_isOk⟩

lemma loadCatalog_isOk_iff (hc : Contains db c) (hrules : c.rules.map Stamped.body = rules)
    (n : Naming) : (Admin.loadCatalog n db).isOk = true ↔ ∀ r ∈ rules, r.IsReadable := by
  rw [isOk_iff, ← hrules, List.forall_mem_map]
  exact ⟨fun ⟨catalog, hload⟩ => (Admin.loadCatalog_eq_ok hc hload).2, Admin.loadCatalog_isOk hc⟩

lemma rule_eq_ok_of_mem {b : RuleRecord} {stored : Option RuleRecord} (hc : Contains db c)
    (hb : b ∈ c.rules) :
    Store.rule db b.body.key = .ok stored ↔ b.body.IsReadable ∧ stored = some b.reread := by
  rw [hc.rule_eq_ok]
  constructor
  · rintro (⟨-, hnone⟩ | ⟨b', hb', hkey, hread, hsome⟩)
    · exact absurd rfl (hnone b hb)
    · obtain rfl := hc.rules.eq_of_key hb' hb hkey
      exact ⟨hread, hsome⟩
  · exact fun ⟨hread, hsome⟩ => .inr ⟨b, hb, rfl, hread, hsome⟩

end Store.Contains

namespace Admin

variable {n : Naming} {ids : Nat → Uuid} {user : Database} {past : List State} {x : State}

lemma Reached.isOk_iff (h : Reached n ids user past x) (hu : user.IsUnmanaged)
    (hids : Set.InjOn ids (Set.Iio x.issued)) :
    ((Store.rules x.db).isOk = true ↔ ∀ r ∈ x.policy.rules, r.IsReadable) ∧
      ((loadCatalog n x.db).isOk = true ↔ ∀ r ∈ x.policy.rules, r.IsReadable) := by
  obtain ⟨catalog, c, hpolicy, hsound⟩ := h.exists_contents hu hids
  have hrules : c.rules.map Stamped.body = x.policy.rules := congrArg Policy.rules hpolicy
  exact ⟨hsound.defined.stored.rules_isOk_iff hrules,
    hsound.defined.stored.loadCatalog_isOk_iff hrules n⟩

/-- The rules of a state can be listed, and the catalog of a call can be loaded, exactly if every
rule in force is readable. The rules that are listed are those in force, each as it is read back,
and each is found by its key exactly if it is readable. -/
theorem readable_iff_of_reached (hu : user.IsUnmanaged) (h : Reached n ids user past x)
    (hids : Set.InjOn ids (Set.Iio x.issued)) :
    ((Store.rules x.db).isOk = true ↔ ∀ r ∈ x.policy.rules, r.IsReadable) ∧
    ((loadCatalog n x.db).isOk = true ↔ ∀ r ∈ x.policy.rules, r.IsReadable) ∧
    (∀ rs, Store.rules x.db = .ok rs →
      (rs.map Stamped.body).Perm (x.policy.rules.map Rule.reread)) ∧
    (∀ r ∈ x.policy.rules, ((Store.rule x.db r.key).isOk = true ↔ r.IsReadable) ∧
      ∀ stored, Store.rule x.db r.key = .ok stored →
        ∃ record, stored = some record ∧ record.body = r.reread ∧
          (record.body = r ↔ ∀ p, r.predicate = some p → ∀ l ∈ p.literals, l.reread = l)) := by
  obtain ⟨hlisted, hloaded⟩ := h.isOk_iff hu hids
  obtain ⟨catalog, c, hpolicy, hsound⟩ := h.exists_contents hu hids
  have hrules : c.rules.map Stamped.body = x.policy.rules := congrArg Policy.rules hpolicy
  have hc : Contains x.db c := hsound.defined.stored
  refine ⟨hlisted, hloaded, fun rs hrs => ?_, fun r hr => ?_⟩
  · have hperm := (hc.rules_eq_ok hrs).2.map Stamped.body
    rw [List.map_map] at hperm
    rw [← hrules, List.map_map]
    exact hperm
  · rw [← hrules] at hr
    obtain ⟨(b : RuleRecord), hb, rfl⟩ := List.mem_map.mp hr
    refine ⟨?_, fun stored hstored => ?_⟩
    · rw [isOk_iff]
      refine ⟨fun ⟨stored, hstored⟩ => ((hc.rule_eq_ok_of_mem hb).mp hstored).1, fun hread => ?_⟩
      exact ⟨_, (hc.rule_eq_ok_of_mem hb).mpr ⟨hread, rfl⟩⟩
    · exact ⟨b.reread, ((hc.rule_eq_ok_of_mem hb).mp hstored).2, rfl, Rule.reread_eq_iff⟩

/-! ### A rule that is nested too deep -/

def nested : Nat → Predicate
  | 0 => .literalEq "x" (.int 1)
  | k + 1 => .and [nested k]

def single : Database :=
  { tables := [{ name := "t", columns := [{ name := "x", type := "INTEGER" }] }] }

/-- A rule with 63 conjunctions. -/
def nestedRule : Rule := ⟨"t", .read, [], some (nested 63)⟩

def nestedState : State :=
  (Call.defineRule nestedRule).perform ⟨⟨"tg_"⟩, Uuid.nth, default⟩ false
    ⟨(Admin.start false single).1, 0, {}⟩

lemma single_isUnmanaged : single.IsUnmanaged := by decide

lemma nestedState_reached : Reached ⟨"tg_"⟩ Uuid.nth single
    [⟨(Admin.start false single).1, 0, {}⟩] nestedState :=
  .call .start (by decide) false _

lemma nestedState_issued : nestedState.issued = 1 := by
  set_option maxRecDepth 100000 in decide +kernel

lemma nestedState_ids : Set.InjOn Uuid.nth (Set.Iio nestedState.issued) :=
  Uuid.injOn_nth (by rw [nestedState_issued]; omega)

theorem readable_iff_of_reached_nested :
    single.IsUnmanaged ∧ Reached ⟨"tg_"⟩ Uuid.nth single
      [⟨(Admin.start false single).1, 0, {}⟩] nestedState ∧
    Set.InjOn Uuid.nth (Set.Iio nestedState.issued) ∧
    ((Store.rules nestedState.db).isOk = true ↔
      ∀ r ∈ nestedState.policy.rules, r.IsReadable) :=
  ⟨single_isUnmanaged, nestedState_reached, nestedState_ids,
    (readable_iff_of_reached single_isUnmanaged nestedState_reached nestedState_ids).1⟩

lemma nestedState_rules : nestedState.policy.rules = [nestedRule] := by
  have hpolicy : nestedState.policy = Policy.setRule {} nestedRule := by
    unfold nestedState
    exact Call.perform_policy (by rw [← nestedState, nestedState_issued]; decide)
  rw [hpolicy]
  rfl

/-- The rule that is stored cannot be read, so no catalog can be loaded. -/
lemma nestedState_unreadable : (Store.rules nestedState.db).isOk = false ∧
    (loadCatalog ⟨"tg_"⟩ nestedState.db).isOk = false := by
  have hunreadable : ¬ ∀ r ∈ nestedState.policy.rules, r.IsReadable := by
    rw [nestedState_rules]
    intro hall
    exact absurd (hall _ List.mem_cons_self _ rfl).2 (by decide +kernel)
  obtain ⟨hlisted, hloaded⟩ := nestedState_reached.isOk_iff single_isUnmanaged nestedState_ids
  exact ⟨Bool.eq_false_iff.mpr (mt hlisted.mp hunreadable),
    Bool.eq_false_iff.mpr (mt hloaded.mp hunreadable)⟩

/-- A rule can be accepted that makes the store unreadable for the calls after it. -/
theorem accepted_rule_unreadable :
    Reached ⟨"tg_"⟩ Uuid.nth single [⟨(Admin.start false single).1, 0, {}⟩] nestedState ∧
      nestedState.policy.rules = [nestedRule] ∧ (Store.rules nestedState.db).isOk = false ∧
      (loadCatalog ⟨"tg_"⟩ nestedState.db).isOk = false :=
  ⟨nestedState_reached, nestedState_rules, nestedState_unreadable⟩

end Admin

end RowPolicy
