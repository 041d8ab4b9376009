import RowPolicy.Proofs.Acceptance

/-!
# What compilation depends on

A rule sees little of a catalog: the shape of its table and, of each claim that it refers to,
whether it is defined and has the properties that the rule tests. Two catalogs that agree on this
compile the rule alike or refuse it for the same reason. What compiles is a matter of the rule and
the shape alone, and the claims that are named in it are those that the rule refers to.
-/

namespace RowPolicy

/-! ### Claims named in a plan -/

namespace Fragment

mutual

def claimNames : Fragment → List String
  | .inClaim _ lookup => [lookup.claim]
  | .all children => claimNamesOfAll children
  | .any children => claimNamesOfAll children
  | _ => []

def claimNamesOfAll : List Fragment → List String
  | [] => []
  | f :: rest => claimNames f ++ claimNamesOfAll rest

end

lemma claimNames_collapse {wrap : List Fragment → Fragment} {fs : List Fragment}
    (hwrap : ∀ fs, (wrap fs).claimNames = claimNamesOfAll fs) :
    (Catalog.collapse wrap fs).claimNames = claimNamesOfAll fs := by
  rcases fs with _ | ⟨f, _ | ⟨g, rest⟩⟩
  · exact hwrap []
  · simp [Catalog.collapse, claimNamesOfAll]
  · exact hwrap (f :: g :: rest)

end Fragment

def Check.claimNames (c : Check) : List String :=
  match c.kind with
  | .principal => []
  | .member lookup => [lookup.claim]

/-- The claims that are named in each part of a plan: the filtered view, the checks of the accessor
if there is one, and the guard. -/
def CompiledRule.claimNames : CompiledRule → List (List String)
  | .read view (.ok accessor) =>
    [view.filter.claimNames, accessor.checks.flatMap Check.claimNames]
  | .read view (.error _) => [view.filter.claimNames]
  | .write (.create _ _ conditions) => [conditions.flatMap fun g => g.fragment.claimNames]
  | .write (.restrict _ _ _ _ filter) => [filter.claimNames]

namespace Predicate

mutual

lemma claimNames_lowered {p : Predicate} : p.lowered.claimNames = p.claimList := by
  match p with
  | .literalEq _ _ | .identityEq _ | .membership _ _ | .propertyCheck _ _ _ _ =>
    simp [lowered, claimList, Fragment.claimNames]
  | .and children | .or children =>
    rw [lowered, claimList, Fragment.claimNames_collapse fun _ => rfl, claimNames_loweredAll]

lemma claimNames_loweredAll {ps : List Predicate} :
    Fragment.claimNamesOfAll (loweredAll ps) = claimLists ps := by
  match ps with
  | [] => rfl
  | p :: rest =>
    rw [loweredAll, Fragment.claimNamesOfAll, claimLists, claimNames_lowered, claimNames_loweredAll]

end

mutual

/-- The leaves of a predicate name the claims that it refers to, as checks and as conditions. -/
lemma claimNames_leaves? {p : Predicate} {cs : List Condition} (h : p.leaves? = some cs) :
    (cs.filterMap Condition.check?).flatMap Check.claimNames = p.claimList ∧
      (cs.flatMap fun cond => cond.fragment.claimNames) = p.claimList := by
  match p with
  | .literalEq _ _ | .identityEq _ | .membership _ _ | .propertyCheck _ _ _ _ =>
    rw [leaves?, Option.some.injEq] at h
    subst h
    exact ⟨rfl, rfl⟩
  | .and children => exact claimNames_leavesAll? h
  | .or children => cases h

lemma claimNames_leavesAll? {ps : List Predicate} {cs : List Condition}
    (h : leavesAll? ps = some cs) :
    (cs.filterMap Condition.check?).flatMap Check.claimNames = claimLists ps ∧
      (cs.flatMap fun cond => cond.fragment.claimNames) = claimLists ps := by
  match ps with
  | [] =>
    cases h
    exact ⟨rfl, rfl⟩
  | p :: rest =>
    rw [leavesAll?] at h
    cases hfirst : leaves? p with
    | none => simp [hfirst] at h
    | some first =>
      cases hmore : leavesAll? rest with
      | none => simp [hfirst, hmore] at h
      | some more =>
        obtain rfl : first ++ more = cs := by simpa [hfirst, hmore] using h
        obtain ⟨hchecks, hconditions⟩ := claimNames_leaves? hfirst
        obtain ⟨hchecks', hconditions'⟩ := claimNames_leavesAll? hmore
        simp only [claimLists, List.filterMap_append, List.flatMap_append, hchecks, hchecks',
          hconditions, hconditions', and_self]

end

end Predicate

namespace Rule

def claims (r : Rule) : List String := (r.predicate.map Predicate.claims).getD []

lemma mem_claims {r : Rule} {name : String} : name ∈ r.claims ↔ r.references name = true := by
  unfold claims references
  cases r.predicate with
  | none => simp
  | some p => simp [Predicate.claims]

lemma claimNames_filter (r : Rule) (absent : Fragment) (habsent : absent.claimNames = [])
    (name : String) : name ∈ (r.filter absent).claimNames ↔ name ∈ r.claims := by
  unfold filter claims
  cases r.predicate with
  | none => simp [habsent]
  | some p => simp [Predicate.claimNames_lowered, Predicate.claims]

/-- Every part of a plan names the claims that its rule refers to. -/
lemma claimNames_plan {r : Rule} {t : TableShape} {plan : CompiledRule}
    (h : r.plan? t = some plan) :
    ∀ names ∈ plan.claimNames, ∀ name, name ∈ names ↔ name ∈ r.claims := by
  have halways := r.claimNames_filter .always rfl
  have hnever := r.claimNames_filter .never rfl
  cases hop : r.operation with
  | read =>
    simp only [plan?, hop, Option.some.injEq] at h
    subst h
    cases haccessor : r.accessor t with
    | error f => simpa [CompiledRule.claimNames] using halways
    | ok a =>
      -- The accessor has a check for each leaf that looks up a claim.
      refine List.forall_mem_cons.mpr ⟨halways, List.forall_mem_singleton.mpr fun name => ?_⟩
      unfold accessor at haccessor
      unfold claims
      cases hp : r.predicate with
      | none =>
        rw [hp] at haccessor
        cases haccessor
        simp [Accessor.checks]
      | some p =>
        cases hleaves : p.leaves? with
        | none => simp [hp, hleaves] at haccessor
        | some cs =>
          simp only [hp, Option.map_some, hleaves, Except.ok.injEq] at haccessor
          subst haccessor
          rw [Accessor.checks, (Predicate.claimNames_leaves? hleaves).1]
          simp [Predicate.claims]
  | create =>
    simp only [plan?, hop, Option.some.injEq] at h
    subst h
    refine List.forall_mem_singleton.mpr fun name => ?_
    -- There is a condition for each leaf, or one for the whole predicate.
    unfold guardConditions claims
    cases r.predicate with
    | none => simp [Fragment.claimNames]
    | some p =>
      cases hleaves : p.leaves? with
      | none => simp [Predicate.claimNames_lowered, Predicate.claims, hleaves]
      | some cs =>
        simp only [hleaves, List.flatMap_map, (Predicate.claimNames_leaves? hleaves).2]
        simp [Predicate.claims]
  | update | delete =>
    simp only [plan?, hop, Option.map_eq_some_iff] at h
    obtain ⟨key, -, rfl⟩ := h
    exact List.forall_mem_singleton.mpr hnever

end Rule

/-! ### Catalogs that look alike -/

namespace Catalog

variable {c c' : Catalog} {t : TableShape}

/-- A claim looks alike in two catalogs to a rule: it is defined in both or in none, and both
definitions have the properties that the rule tests or lack them. -/
structure LooksAlike (c c' : Catalog) (r : Rule) (name : String) : Prop where
  defined : (∃ claim, c.claim? name = some claim) ↔ ∃ claim, c'.claim? name = some claim
  exposes : ∀ claim claim', c.claim? name = some claim → c'.claim? name = some claim' →
    ∀ property, r.Tests name property → (claim.exposes property ↔ claim'.exposes property)

lemma resolveLookup_congr {r : Rule} {l : Lookup} (hl : l ∈ r.lookups)
    (h : LooksAlike c c' r l.claim) : c.resolveLookup l = c'.resolveLookup l := by
  unfold resolveLookup
  obtain ⟨hdefined, hexposes⟩ := h
  cases hclaim : c.claim? l.claim with
  | none =>
    cases hclaim' : c'.claim? l.claim with
    | none => rfl
    | some claim' => simp [hclaim, hclaim'] at hdefined
  | some claim =>
    cases hclaim' : c'.claim? l.claim with
    | none => simp [hclaim, hclaim'] at hdefined
    | some claim' =>
      obtain ⟨name, property⟩ := l
      cases property with
      | none => rfl
      | some filter =>
        have hsame := hexposes claim claim' hclaim hclaim' filter.property ⟨filter.allowed, hl⟩
        simp only [hsame]

lemma memberCheck_congr {column : String} {l : Lookup}
    (h : c.resolveLookup l = c'.resolveLookup l) :
    c.memberCheck t column l = c'.memberCheck t column l := by
  rw [memberCheck, memberCheck, h]

mutual

lemma lower_congr {p : Predicate}
    (h : ∀ l ∈ p.lookups, c.resolveLookup l = c'.resolveLookup l) :
    c.lower t p = c'.lower t p := by
  match p with
  | .literalEq _ _ | .identityEq _ => rw [lower, lower]
  | .membership _ _ | .propertyCheck _ _ _ _ =>
    rw [Predicate.lookups, List.forall_mem_singleton] at h
    rw [lower, lower, memberCheck_congr h]
  | .and children | .or children =>
    rw [Predicate.lookups] at h
    rw [lower, lower, lowerAll_congr h]

lemma lowerAll_congr {ps : List Predicate}
    (h : ∀ l ∈ Predicate.lookupsOfAll ps, c.resolveLookup l = c'.resolveLookup l) :
    c.lowerAll t ps = c'.lowerAll t ps := by
  match ps with
  | [] => rw [lowerAll, lowerAll]
  | p :: rest =>
    rw [Predicate.lookupsOfAll, List.forall_mem_append] at h
    rw [lowerAll, lowerAll, lower_congr h.1, lowerAll_congr h.2]

end

mutual

/-- Taking a predicate apart looks at a catalog only for the lookups of the predicate. -/
lemma conditions_congr {p : Predicate}
    (h : ∀ l ∈ p.lookups, c.resolveLookup l = c'.resolveLookup l) :
    c.conditions t p = c'.conditions t p := by
  match p with
  | .literalEq _ _ | .identityEq _ | .or _ => rw [conditions, conditions]
  | .membership _ _ | .propertyCheck _ _ _ _ =>
    rw [Predicate.lookups, List.forall_mem_singleton] at h
    rw [conditions, conditions, memberCheck_congr h]
  | .and children =>
    rw [Predicate.lookups] at h
    rw [conditions, conditions, conditionsAll_congr h]

lemma conditionsAll_congr {ps : List Predicate}
    (h : ∀ l ∈ Predicate.lookupsOfAll ps, c.resolveLookup l = c'.resolveLookup l) :
    c.conditionsAll t ps = c'.conditionsAll t ps := by
  match ps with
  | [] => rw [conditionsAll, conditionsAll]
  | p :: rest =>
    rw [Predicate.lookupsOfAll, List.forall_mem_append] at h
    rw [conditionsAll, conditionsAll, conditions_congr h.1, conditionsAll_congr h.2]

end

/-- A rule is compiled alike, or refused alike, if its table and its lookups are resolved alike. -/
lemma compileRule_eq_of_lookups {r : Rule} (htable : c.table? r.table = c'.table? r.table)
    (h : ∀ l ∈ r.lookups, c.resolveLookup l = c'.resolveLookup l) :
    c.compileRule r = c'.compileRule r := by
  have hlower : ∀ t, c.lowerOption t r.predicate = c'.lowerOption t r.predicate := by
    intro t
    cases hp : r.predicate with
    | none => rfl
    | some p =>
      rw [Rule.lookups, hp] at h
      rw [lowerOption, lowerOption, lower_congr h]
  have hdecompose : ∀ t p, r.predicate = some p → c.decompose t p = c'.decompose t p := by
    intro t p hp
    rw [Rule.lookups, hp] at h
    rw [decompose, decompose, conditions_congr h]
  have haccessor : ∀ t, c.compileAccessor t r = c'.compileAccessor t r := by
    intro t
    unfold compileAccessor
    cases hp : r.predicate with
    | none => rfl
    | some p => simp only [hdecompose t p hp]
  have hconditions : ∀ t filter, c.createConditions t r.predicate filter =
      c'.createConditions t r.predicate filter := by
    intro t filter
    cases hp : r.predicate with
    | none => rfl
    | some p => rw [createConditions, createConditions, hdecompose t p hp]
  simp only [compileRule, resolveTable, htable, hlower, haccessor, hconditions]

/-- Compilation depends on a claim only through what the rule refers to. Two catalogs in which the
rule has the same table, and in which its claims look alike, give it the same plan or the same
error. Whatever the claims are, two plans over one table are equal, and each part of a plan names
exactly the claims that the rule refers to. -/
theorem compileRule_depends {c c' : Catalog} {r : Rule}
    (htable : c.table? r.table = c'.table? r.table) :
    ((∀ name ∈ r.claims, LooksAlike c c' r name) → c.compileRule r = c'.compileRule r) ∧
      ∀ plan plan', c.compileRule r = .ok plan → c'.compileRule r = .ok plan' →
        plan = plan' ∧ ∀ names ∈ plan.claimNames, ∀ name, name ∈ names ↔ name ∈ r.claims := by
  refine ⟨fun halike => ?_, fun plan plan' hplan hplan' => ?_⟩
  · refine compileRule_eq_of_lookups htable fun l hl => resolveLookup_congr hl (halike _ ?_)
    exact Rule.mem_claims.mpr (Rule.references_iff.mpr ⟨l, hl, rfl⟩)
  · obtain ⟨-, t, ht, -, hplan⟩ := compileRule_eq_ok.mp hplan
    obtain ⟨-, t', ht', -, hplan'⟩ := compileRule_eq_ok.mp hplan'
    obtain rfl : t = t' := Option.some.inj (ht.symm.trans (htable.trans ht'))
    exact ⟨Option.some.inj (hplan.symm.trans hplan'), Rule.claimNames_plan hplan⟩

/-- The orders and regions with another source of the regions, one more property and one more
table. -/
def movedOrders : Catalog where
  tables := [⟨"agents", ["agent"], .rowId⟩, ⟨"orders", ["id", "agent", "region"], .column "id"⟩]
  claims := [⟨"regions", .query "SELECT a, b, rank, role FROM staff", "a", "b", ["rank", "role"]⟩]

theorem compileRule_depends_orders :
    orders.compileRule (ordersUpdate "role") = movedOrders.compileRule (ordersUpdate "role") ∧
      ∃ plan, orders.compileRule (ordersUpdate "role") = .ok plan ∧
        ∀ names ∈ plan.claimNames, ∀ name, name ∈ names ↔ name ∈ ["regions"] := by
  have htable : orders.table? "orders" = movedOrders.table? "orders" := by decide
  have hclaims : (ordersUpdate "role").claims = ["regions"] := by decide
  obtain ⟨hsame, hplans⟩ := compileRule_depends (r := ordersUpdate "role") htable
  have halike : ∀ name ∈ (ordersUpdate "role").claims,
      LooksAlike orders movedOrders (ordersUpdate "role") name := by
    rw [hclaims, List.forall_mem_singleton]
    refine ⟨iff_of_true ⟨_, rfl⟩ ⟨_, rfl⟩, fun claim claim' hclaim hclaim' property htests => ?_⟩
    cases hclaim
    cases hclaim'
    obtain ⟨allowed, hmem⟩ := htests
    cases List.mem_singleton.mp hmem
    decide
  obtain ⟨plan, hplan⟩ : orders.Compiles (ordersUpdate "role") := isOk_iff.mp (by decide)
  refine ⟨hsame halike, plan, hplan, hclaims ▸ (hplans plan plan hplan ?_).2⟩
  rw [← hsame halike, hplan]

end Catalog

end RowPolicy
