import RowPolicy.Proofs.Admin.Registration

/-!
# Decompositions

A predicate without a disjunction is taken apart into its leaves, from left to right, and the
parameters of its accessor are the columns that the checks test. A predicate with a disjunction is
enforced as a whole: nothing that was collected before the disjunction was met gets into an
artifact.
-/

namespace RowPolicy

/-! ### Leaves -/

/-- A condition tests what a leaf of a predicate asks for. -/
inductive Condition.Tests : Condition → Predicate → Prop where
  | literal (column : String) (value : Literal) :
    Tests (.baked column value) (.literalEq column value)
  | identity (column : String) : Tests (.check ⟨column, .principal⟩) (.identityEq column)
  | member (column claim : String) :
    Tests (.check ⟨column, .member ⟨claim, none⟩⟩) (.membership column claim)
  | property (column claim property : String) (allowed : List Literal) :
    Tests (.check ⟨column, .member ⟨claim, some ⟨property, allowed⟩⟩⟩)
      (.propertyCheck column claim property allowed)

namespace Predicate

mutual

/-- The leaves of a predicate, depth first and from left to right. -/
def leaves : Predicate → List Predicate
  | .and children => leavesAll children
  | .or children => leavesAll children
  | p => [p]

def leavesAll : List Predicate → List Predicate
  | [] => []
  | p :: rest => leaves p ++ leavesAll rest

end

mutual

/-- What a predicate is taken apart into tests its leaves, one by one. -/
lemma tests_of_leaves? {p : Predicate} {cs : List Condition} (h : p.leaves? = some cs) :
    List.Forall₂ Condition.Tests cs p.leaves := by
  match p with
  | .literalEq column value =>
    cases h
    exact .cons (.literal column value) .nil
  | .identityEq column =>
    cases h
    exact .cons (.identity column) .nil
  | .membership column claim =>
    cases h
    exact .cons (.member column claim) .nil
  | .propertyCheck column claim property allowed =>
    cases h
    exact .cons (.property column claim property allowed) .nil
  | .and children => exact tests_of_leavesAll? h
  | .or children => cases h

lemma tests_of_leavesAll? {ps : List Predicate} {cs : List Condition}
    (h : leavesAll? ps = some cs) : List.Forall₂ Condition.Tests cs (leavesAll ps) := by
  match ps with
  | [] =>
    cases h
    exact .nil
  | p :: rest =>
    rw [leavesAll?] at h
    cases hp : p.leaves? with
    | none => simp [hp] at h
    | some first =>
      cases hrest : leavesAll? rest with
      | none => simp [hp, hrest] at h
      | some more =>
        rw [hp, hrest] at h
        cases h
        exact List.rel_append (tests_of_leaves? hp) (tests_of_leavesAll? hrest)

end

lemma leaves?_eq_none {p : Predicate} : p.leaves? = none ↔ p.hasOr = true := by
  rw [← leaves?_isNone, Option.isNone_iff_eq_none]

lemma exists_leaves? {p : Predicate} : (∃ cs, p.leaves? = some cs) ↔ p.hasOr = false := by
  rw [← leaves?_isNone, ← Option.isSome_iff_exists, ← Option.not_isSome, Bool.not_eq_false']

lemma decomposition_eq_independent {p : Predicate} {t : TableShape} {cs : List Condition} :
    p.decomposition t = .independent cs ↔ p.leaves? = some cs := by
  rw [decomposition]
  cases p.leaves? <;> simp

lemma decomposition_eq_fallback {p : Predicate} {t : TableShape} (h : p.hasOr = true) :
    p.decomposition t = .fallback ⟨t.name⟩ := by
  rw [decomposition, leaves?_eq_none.mpr h]

end Predicate

/-! ### Parameters -/

namespace Accessor

variable {seen columns rest : List String} {column : String}

/-- Columns in the order of their first appearance in a list. -/
def InOrder (columns shown : List String) : Prop :=
  shown.Nodup ∧ shown.Pairwise fun x y => columns.idxOf x < columns.idxOf y

lemma InOrder.append (h : InOrder columns seen) (hseen : ∀ x ∈ seen, x ∈ columns)
    (rest : List String) : InOrder (columns ++ rest) seen := by
  refine ⟨h.1, h.2.imp_of_mem fun {x y} hx hy hxy => ?_⟩
  rwa [List.idxOf_append_of_mem (hseen x hx), List.idxOf_append_of_mem (hseen y hy)]

lemma InOrder.addColumn (h : InOrder columns seen) (hseen : ∀ x, x ∈ seen ↔ x ∈ columns)
    (column : String) : InOrder (columns ++ [column]) (addColumn seen column) := by
  have hbefore := h.append (fun x => (hseen x).mp) [column]
  rw [Accessor.addColumn]
  split
  next => exact hbefore
  next hnew =>
    have hmem : column ∉ seen := fun hc => hnew (List.contains_iff_mem.mpr hc)
    have hcolumn : column ∉ columns := fun hc => hmem ((hseen column).mpr hc)
    refine ⟨List.nodup_append.mpr ⟨h.1, List.nodup_singleton column, ?_⟩,
      List.pairwise_append.mpr ⟨hbefore.2, List.pairwise_singleton _ _, ?_⟩⟩
    · rintro x hx y hy rfl
      exact hmem (List.mem_singleton.mp hy ▸ hx)
    · rintro x hx y hy
      rw [List.mem_singleton.mp hy, List.idxOf_append_of_mem ((hseen x).mp hx),
        List.idxOf_append_of_notMem hcolumn]
      have hlt := List.idxOf_lt_length_iff.mpr ((hseen x).mp hx)
      omega

lemma inOrder_foldl (h : InOrder columns seen) (hseen : ∀ x, x ∈ seen ↔ x ∈ columns) :
    InOrder (columns ++ rest) (rest.foldl addColumn seen) := by
  induction rest generalizing columns seen with
  | nil => simpa using h
  | cons column rest ih =>
    have hstep : ∀ x, x ∈ addColumn seen column ↔ x ∈ columns ++ [column] := by
      intro x
      have hadd : x ∈ [column].foldl Accessor.addColumn seen ↔ x ∈ seen ∨ x ∈ [column] :=
        mem_foldl_addColumn
      rw [List.foldl_cons, List.foldl_nil] at hadd
      rw [hadd, hseen, List.mem_append]
    have hall := ih (h.addColumn hseen column) hstep
    rwa [List.append_assoc] at hall

/-- The parameters of an accessor are the columns of its checks by first appearance. -/
lemma inOrder_parameters (a : Accessor) : InOrder (a.checks.map Check.column) a.parameters := by
  have hnil : InOrder [] [] := ⟨List.nodup_nil, .nil⟩
  have hall : InOrder ([] ++ a.checks.map Check.column) a.parameters :=
    inOrder_foldl hnil fun _ => Iff.rfl
  rwa [List.nil_append] at hall

lemma mem_parameters {a : Accessor} {column : String} :
    column ∈ a.parameters ↔ ∃ check, .check check ∈ a.conditions ∧ check.column = column := by
  rw [parameters, mem_foldl_addColumn, List.mem_map]
  simp only [List.not_mem_nil, false_or, mem_checks]

end Accessor

/-! ### Artifacts -/

/-- An artifact enforces a fragment as a whole: it is no accessor, and there is no other condition
in it. -/
def ArtifactBody.IsWhole (n : Naming) (table : String) (f : Fragment) : ArtifactBody → Prop
  | .view sql => ∃ projection, sql = n.readViewSql ⟨table, projection, f⟩
  | .accessor _ _ _ => False
  | .createGuard _ conditions => ∃ reason, conditions =
      [⟨GuardCondition.wholeLabel, reason, n.fragment (Sql.quoteName table) f⟩]
  | .restrictGuard _ _ filter => filter = n.fragment (Sql.quoteName table) f

namespace Rule

/-- A rule whose predicate holds a disjunction is enforced as a whole. -/
lemma isWhole_of_compileRule {c : Catalog} {n : Naming} {r : Rule} {p : Predicate}
    {plan : CompiledRule} {x : Rendered} (hp : r.predicate = some p) (hor : p.hasOr = true)
    (hplan : c.compileRule r = .ok plan) (hx : x ∈ n.renderRule plan) :
    x.body.IsWhole n r.table p.lowered := by
  obtain ⟨-, t, ht, -, hplan⟩ := Catalog.compileRule_eq_ok.mp hplan
  have hname := Catalog.name_of_table? ht
  have hnone := Predicate.leaves?_eq_none.mpr hor
  cases hop : r.operation with
  | read =>
    simp only [plan?, hop, Option.some.injEq] at hplan
    have haccessor : r.accessor t = .error ⟨t.name⟩ := by
      simp only [accessor, hp, Option.map_some, hnone]
    subst hplan
    rw [haccessor] at hx
    cases List.mem_singleton.mp hx
    exact ⟨r.projection, by simp only [filter, hp, Option.map_some, Option.getD_some, hname]⟩
  | create =>
    simp only [plan?, hop, Option.some.injEq] at hplan
    have hconditions : r.guardConditions = [⟨GuardCondition.wholeLabel, p.lowered⟩] := by
      simp only [guardConditions, hp, hnone]
    subst hplan
    rw [hconditions] at hx
    cases List.mem_singleton.mp hx
    exact ⟨_, by rw [← hname]; rfl⟩
  | update | delete =>
    simp only [plan?, hop, Option.map_eq_some_iff] at hplan
    obtain ⟨key, -, rfl⟩ := hplan
    cases List.mem_singleton.mp hx
    simp only [ArtifactBody.IsWhole, Naming.renderGuard, Guard.table, filter, hp, Option.map_some,
      Option.getD_some, hname]

end Rule

namespace Catalog

/-- A predicate that can be lowered is taken apart into its leaves exactly if it holds no
disjunction; otherwise its table is named, and no artifact of a rule with the predicate holds one of
its conditions. -/
theorem decompose_of_lower {c : Catalog} {t : TableShape} {p : Predicate} {f : Fragment}
    (h : c.lower t p = .ok f) :
    ((∃ cs, c.decompose t p = .ok (.independent cs)) ↔ p.hasOr = false) ∧
      (∀ cs projection, c.decompose t p = .ok (.independent cs) →
        List.Forall₂ Condition.Tests cs p.leaves ∧
          Accessor.InOrder ((Accessor.mk t.name projection cs).checks.map Check.column)
            (Accessor.mk t.name projection cs).parameters ∧
          ∀ column, column ∈ (Accessor.mk t.name projection cs).parameters ↔
            ∃ check, .check check ∈ cs ∧ check.column = column) ∧
      (p.hasOr = true → c.decompose t p = .ok (.fallback ⟨t.name⟩) ∧
        ∀ (n : Naming) (r : Rule) (plan : CompiledRule), r.predicate = some p →
          c.compileRule r = .ok plan → ∀ x ∈ n.renderRule plan, x.body.IsWhole n r.table f) := by
  obtain ⟨hresolves, rfl⟩ := Predicate.lower_eq_ok.mp h
  have hdecompose := Predicate.decompose_eq hresolves
  have hindependent : ∀ cs, c.decompose t p = .ok (.independent cs) ↔ p.leaves? = some cs := by
    intro cs
    rw [hdecompose, Except.ok.injEq, Predicate.decomposition_eq_independent]
  refine ⟨?_, fun cs projection hcs => ?_, fun hor => ⟨?_, fun n r plan hp hplan x hx => ?_⟩⟩
  · simp only [hindependent, Predicate.exists_leaves?]
  · exact ⟨Predicate.tests_of_leaves? ((hindependent cs).mp hcs), Accessor.inOrder_parameters _,
      fun _ => Accessor.mem_parameters⟩
  · rw [hdecompose, Predicate.decomposition_eq_fallback hor]
  · exact Rule.isWhole_of_compileRule hp hor hplan hx

def ticketShape : TableShape := ⟨"tickets", ["id", "owner", "team"], .column "id"⟩

def tickets : Catalog where
  tables := [ticketShape]
  claims := [⟨"teams", .table "members", "person", "team", ["role"]⟩]

/-- The owner's tickets of the owner's teams. -/
def ownInTeam : Predicate :=
  .and [.identityEq "owner", .and [.membership "team" "teams", .and [], .identityEq "owner"]]

/-- The same with a disjunction of one. -/
def ownOrInTeam : Predicate := .and [.identityEq "owner", .or [.membership "team" "teams"]]

/-- A column that two leaves test is one parameter; a disjunction below a conjunction leaves nothing
of the leaf before it. -/
theorem decompose_tickets :
    (∃ cs, tickets.decompose ticketShape ownInTeam = .ok (.independent cs) ∧
        List.Forall₂ Condition.Tests cs ownInTeam.leaves ∧
        (Accessor.mk "tickets" [] cs).parameters = ["owner", "team"]) ∧
      tickets.decompose ticketShape ownOrInTeam = .ok (.fallback ⟨"tickets"⟩) := by
  have hown := decompose_of_lower (c := tickets) (t := ticketShape) (p := ownInTeam) rfl
  have hor := decompose_of_lower (c := tickets) (t := ticketShape) (p := ownOrInTeam) rfl
  exact ⟨⟨_, rfl, (hown.2.1 _ [] rfl).1, by decide⟩, (hor.2.2 rfl).1⟩

end Catalog

end RowPolicy
