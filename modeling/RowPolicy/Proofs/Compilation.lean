import Mathlib.Data.List.TFAE
import Mathlib.Tactic.TFAE
import RowPolicy.Plan.Compile
import RowPolicy.Proofs.Meaning
import RowPolicy.Proofs.Outcome

/-!
# Compilation

Compilation resolves names and builds a plan. The plan itself does not depend on the catalog: it is
a function of the rule and the shape of its table, and the catalog only decides whether there is
one. So the plans of the four operations can be compared with the predicate that they carry.
-/

namespace RowPolicy

/-! ### Names -/

/-- The claim of a lookup is defined and exposes the property that is looked at. -/
def Catalog.Finds (c : Catalog) (lookup : Lookup) : Prop :=
  ∃ claim, c.claim? lookup.claim = some claim ∧
    ∀ filter, lookup.property = some filter → claim.exposes filter.property = true

variable {c : Catalog} {t : TableShape} {column : String} {lookup : Lookup} {p : Predicate}

namespace Catalog

lemma resolveTable_eq_ok {name : String} :
    c.resolveTable name = .ok t ↔ c.table? name = some t := by
  unfold resolveTable
  cases c.table? name <;> simp

lemma resolveColumn_eq_ok {u : Unit} :
    resolveColumn t column = .ok u ↔ t.hasColumn column = true := by
  simp [resolveColumn]

lemma resolveColumns_eq_ok {columns : List String} {u : Unit} :
    resolveColumns t columns = .ok u ↔ ∀ column ∈ columns, t.hasColumn column = true := by
  induction columns with
  | nil => simp [resolveColumns]
  | cons column rest ih =>
    simp only [resolveColumns, bind_eq_ok, resolveColumn_eq_ok, ih, exists_const,
      List.mem_cons, forall_eq_or_imp]

lemma resolveLookup_eq_ok {u : Unit} :
    c.resolveLookup lookup = .ok u ↔ c.Finds lookup := by
  unfold resolveLookup Finds
  cases c.claim? lookup.claim with
  | none => simp
  | some claim =>
    cases lookup.property with
    | none => simp
    | some filter => simp

lemma memberCheck_eq_ok {check : Check} :
    c.memberCheck t column lookup = .ok check ↔
      t.hasColumn column = true ∧ c.Finds lookup ∧ check = ⟨column, .member lookup⟩ := by
  simp only [memberCheck, bind_eq_ok, resolveColumn_eq_ok, resolveLookup_eq_ok, pure_eq_ok,
    exists_const, @eq_comm _ check]

lemma name_of_table? {name : String} (h : c.table? name = some t) : t.name = name := by
  simpa using List.find?_some h

end Catalog

/-! ### Predicates -/

namespace Predicate

mutual

/-- The columns of a predicate are those of a table, and its lookups find their claims. -/
def Resolves (c : Catalog) (t : TableShape) : Predicate → Prop
  | .literalEq column _ => t.hasColumn column = true
  | .identityEq column => t.hasColumn column = true
  | .membership column claim => t.hasColumn column = true ∧ c.Finds ⟨claim, none⟩
  | .propertyCheck column claim property allowed =>
    t.hasColumn column = true ∧ c.Finds ⟨claim, some ⟨property, allowed⟩⟩
  | .and children => ResolveAll c t children
  | .or children => ResolveAll c t children

def ResolveAll (c : Catalog) (t : TableShape) : List Predicate → Prop
  | [] => True
  | p :: rest => Resolves c t p ∧ ResolveAll c t rest

end

mutual

def lowered : Predicate → Fragment
  | .literalEq column value => .literalEq column value
  | .identityEq column => .principalEq column
  | .membership column claim => .inClaim column ⟨claim, none⟩
  | .propertyCheck column claim property allowed =>
    .inClaim column ⟨claim, some ⟨property, allowed⟩⟩
  | .and children => Catalog.collapse .all (loweredAll children)
  | .or children => Catalog.collapse .any (loweredAll children)

def loweredAll : List Predicate → List Fragment
  | [] => []
  | p :: rest => lowered p :: loweredAll rest

end

mutual

def leaves? : Predicate → Option (List Condition)
  | .literalEq column value => some [.baked column value]
  | .identityEq column => some [.check ⟨column, .principal⟩]
  | .membership column claim => some [.check ⟨column, .member ⟨claim, none⟩⟩]
  | .propertyCheck column claim property allowed =>
    some [.check ⟨column, .member ⟨claim, some ⟨property, allowed⟩⟩⟩]
  | .and children => leavesAll? children
  | .or _ => none

def leavesAll? : List Predicate → Option (List Condition)
  | [] => some []
  | p :: rest =>
    match leaves? p, leavesAll? rest with
    | some first, some more => some (first ++ more)
    | _, _ => none

end

mutual

lemma lower_eq_ok {c : Catalog} {t : TableShape} {p : Predicate} {f : Fragment} :
    c.lower t p = .ok f ↔ p.Resolves c t ∧ p.lowered = f := by
  match p with
  | .literalEq column value | .identityEq column =>
    simp only [Catalog.lower, bind_eq_ok, Catalog.resolveColumn_eq_ok, pure_eq_ok, exists_const,
      Resolves, lowered]
  | .membership column claim | .propertyCheck column claim property allowed =>
    simp only [Catalog.lower, bind_eq_ok, Catalog.memberCheck_eq_ok, pure_eq_ok, Resolves, lowered]
    constructor
    · rintro ⟨check, ⟨hcolumn, hfinds, rfl⟩, rfl⟩
      exact ⟨⟨hcolumn, hfinds⟩, rfl⟩
    · rintro ⟨⟨hcolumn, hfinds⟩, rfl⟩
      exact ⟨_, ⟨hcolumn, hfinds, rfl⟩, rfl⟩
  | .and children | .or children =>
    simp only [Catalog.lower, bind_eq_ok, lowerAll_eq_ok, pure_eq_ok, Resolves, lowered]
    constructor
    · rintro ⟨fs, ⟨hresolve, rfl⟩, rfl⟩
      exact ⟨hresolve, rfl⟩
    · rintro ⟨hresolve, rfl⟩
      exact ⟨_, ⟨hresolve, rfl⟩, rfl⟩

lemma lowerAll_eq_ok {c : Catalog} {t : TableShape} {ps : List Predicate} {fs : List Fragment} :
    c.lowerAll t ps = .ok fs ↔ ResolveAll c t ps ∧ loweredAll ps = fs := by
  match ps with
  | [] => simp [Catalog.lowerAll, ResolveAll, loweredAll]
  | p :: rest =>
    simp only [Catalog.lowerAll, bind_eq_ok, lower_eq_ok, lowerAll_eq_ok, pure_eq_ok, ResolveAll,
      loweredAll]
    constructor
    · rintro ⟨f, ⟨hp, rfl⟩, fs', ⟨hrest, rfl⟩, rfl⟩
      exact ⟨⟨hp, hrest⟩, rfl⟩
    · rintro ⟨⟨hp, hrest⟩, rfl⟩
      exact ⟨_, ⟨hp, rfl⟩, _, ⟨hrest, rfl⟩, rfl⟩

end

mutual

/-- A predicate that resolves is taken apart into its leaves. -/
lemma conditions_eq {c : Catalog} {t : TableShape} {p : Predicate} (h : p.Resolves c t) :
    c.conditions t p = .ok p.leaves? := by
  match p with
  | .literalEq column value | .identityEq column =>
    have hcolumn : t.hasColumn column = true := h
    simp [Catalog.conditions, Catalog.resolveColumn, hcolumn, leaves?, bind, Except.bind, pure,
      Except.pure]
  | .membership column claim | .propertyCheck column claim property allowed =>
    simp [Catalog.conditions, Catalog.memberCheck_eq_ok.mpr ⟨h.1, h.2, rfl⟩, leaves?, bind,
      Except.bind, pure, Except.pure]
  | .and children =>
    simp only [Catalog.conditions, leaves?]
    exact conditionsAll_eq h
  | .or children => rfl

lemma conditionsAll_eq {c : Catalog} {t : TableShape} {ps : List Predicate}
    (h : ResolveAll c t ps) : c.conditionsAll t ps = .ok (leavesAll? ps) := by
  match ps with
  | [] => rfl
  | p :: rest =>
    simp only [Catalog.conditionsAll, conditions_eq h.1, conditionsAll_eq h.2, leavesAll?, bind,
      Except.bind, pure, Except.pure]
    cases leaves? p with
    | none => rfl
    | some first => cases leavesAll? rest <;> rfl

end

def decomposition (t : TableShape) (p : Predicate) : Decomposition :=
  match p.leaves? with
  | some cs => .independent cs
  | none => .fallback ⟨t.name⟩

lemma decompose_eq (h : p.Resolves c t) :
    c.decompose t p = .ok (p.decomposition t) := by
  simp only [Catalog.decompose, conditions_eq h, decomposition, bind, Except.bind, pure,
    Except.pure]
  cases p.leaves? <;> rfl

end Predicate

/-! ### Plans -/

/-- The column that addresses a row of a table, if there is one. -/
def TableShape.keyName? (t : TableShape) : Option String :=
  match t.key with
  | .column name => some name
  | .rowId => some "rowid"
  | .composite _ => none

namespace Rule

/-- The columns and lookups of a rule can be resolved over a table. -/
def Resolves (c : Catalog) (t : TableShape) (r : Rule) : Prop :=
  (∀ column ∈ r.projection, t.hasColumn column = true) ∧
    ∀ p, r.predicate = some p → p.Resolves c t

/-- The condition on a row; `absent` stands for a predicate that is not there. -/
def filter (absent : Fragment) (r : Rule) : Fragment :=
  (r.predicate.map Predicate.lowered).getD absent

def accessor (t : TableShape) (r : Rule) : Except Fallback Accessor :=
  match r.predicate.map Predicate.leaves? with
  | none => .ok ⟨t.name, r.projection, []⟩
  | some (some cs) => .ok ⟨t.name, r.projection, cs⟩
  | some none => .error ⟨t.name⟩

def guardConditions (r : Rule) : List GuardCondition :=
  match r.predicate with
  | none => [⟨GuardCondition.wholeLabel, .never⟩]
  | some p =>
    match p.leaves? with
    | some cs => cs.map fun cond => ⟨cond.column, cond.fragment⟩
    | none => [⟨GuardCondition.wholeLabel, p.lowered⟩]

/-- The plan of a rule over a table; there is none for an update or delete of a table whose rows
cannot be addressed. -/
def plan? (t : TableShape) (r : Rule) : Option CompiledRule :=
  match r.operation with
  | .read => some (.read ⟨t.name, r.projection, r.filter .always⟩ (r.accessor t))
  | .create => some (.write (.create t.name t.columns r.guardConditions))
  | .update =>
    t.keyName?.map fun key => .write (.restrict t.name .update t.columns key (r.filter .never))
  | .delete =>
    t.keyName?.map fun key => .write (.restrict t.name .delete t.columns key (r.filter .never))

end Rule

namespace Catalog

lemma resolveKey_eq_ok {key : String} :
    resolveKey t = .ok key ↔ t.keyName? = some key := by
  unfold resolveKey TableShape.keyName?
  cases t.key <;> simp

lemma lowerOption_eq_ok {predicate : Option Predicate} {filter : Option Fragment} :
    c.lowerOption t predicate = .ok filter ↔
      (∀ p, predicate = some p → p.Resolves c t) ∧ predicate.map Predicate.lowered = filter := by
  cases predicate with
  | none => simp [lowerOption]
  | some p =>
    simp only [lowerOption, bind_eq_ok, Predicate.lower_eq_ok, pure_eq_ok, Option.some.injEq,
      forall_eq', Option.map_some]
    constructor
    · rintro ⟨f, ⟨hp, rfl⟩, rfl⟩
      exact ⟨hp, rfl⟩
    · rintro ⟨hp, rfl⟩
      exact ⟨_, ⟨hp, rfl⟩, rfl⟩

lemma compileAccessor_eq {r : Rule} (h : r.Resolves c t) :
    c.compileAccessor t r = .ok (r.accessor t) := by
  unfold compileAccessor Rule.accessor
  cases hp : r.predicate with
  | none => rfl
  | some p =>
    simp only [Predicate.decompose_eq (h.2 p hp), Predicate.decomposition, Option.map_some, bind,
      Except.bind]
    cases p.leaves? <;> rfl

lemma createConditions_eq {r : Rule} (h : r.Resolves c t) :
    c.createConditions t r.predicate (r.predicate.map Predicate.lowered)
      = .ok r.guardConditions := by
  unfold createConditions Rule.guardConditions
  cases hp : r.predicate with
  | none => rfl
  | some p =>
    simp only [Predicate.decompose_eq (h.2 p hp), Predicate.decomposition, Option.map_some,
      Option.getD_some, bind, Except.bind]
    cases p.leaves? <;> rfl

/-- What compiles, and to what: the form of the rule is right, its names resolve over its table,
and the plan is that of the rule over the table. -/
lemma compileRule_eq_ok {r : Rule} {plan : CompiledRule} :
    c.compileRule r = .ok plan ↔
      r.validate = .ok () ∧ ∃ t, c.table? r.table = some t ∧ r.Resolves c t ∧
        r.plan? t = some plan := by
  simp only [compileRule, bind_eq_ok, resolveTable_eq_ok, resolveColumns_eq_ok, lowerOption_eq_ok,
    exists_const, exists_unit]
  refine and_congr_right fun _ => exists_congr fun t => and_congr_right fun _ => ?_
  -- Once the names are resolved, every operation goes its own way.
  have hsteps : ∀ (h : r.Resolves c t),
      (match r.operation with
        | .read => do
          let accessor ← c.compileAccessor t r
          pure (.read ⟨t.name, r.projection,
            (r.predicate.map Predicate.lowered).getD .always⟩ accessor)
        | .create => do
          let conditions ←
            c.createConditions t r.predicate (r.predicate.map Predicate.lowered)
          pure (.write (.create t.name t.columns conditions))
        | .update => do
          let key ← resolveKey t
          pure (.write (.restrict t.name .update t.columns key
            ((r.predicate.map Predicate.lowered).getD .never)))
        | .delete => do
          let key ← resolveKey t
          pure (.write (.restrict t.name .delete t.columns key
            ((r.predicate.map Predicate.lowered).getD .never))) : Checked CompiledRule)
        = .ok plan ↔ r.plan? t = some plan := by
    intro h
    unfold Rule.plan? Rule.filter
    cases r.operation with
    | read => simp [compileAccessor_eq h, bind, Except.bind, pure, Except.pure]
    | create => simp [createConditions_eq h, bind, Except.bind, pure, Except.pure]
    | update | delete =>
      simp only [bind_eq_ok, pure_eq_ok, resolveKey_eq_ok, Option.map_eq_some_iff]
  constructor
  · rintro ⟨hprojection, filter, ⟨hpredicate, rfl⟩, hplan⟩
    exact ⟨⟨hprojection, hpredicate⟩, (hsteps ⟨hprojection, hpredicate⟩).mp hplan⟩
  · rintro ⟨h, hplan⟩
    exact ⟨h.1, _, ⟨h.2, rfl⟩, (hsteps h).mpr hplan⟩

end Catalog

/-! ### Meaning of plans -/

section Meaning

variable {w : Surroundings} {row : RowValues}

namespace Fragment

variable {fs : List Fragment}

lemma truthOfAll_eq_true :
    truthOfAll w row fs = some true ↔ ∀ f ∈ fs, f.IsTrue w row := by
  induction fs with
  | nil => simp [truthOfAll]
  | cons f rest ih => simp [truthOfAll, ih, IsTrue]

lemma truthOfAny_eq_true :
    truthOfAny w row fs = some true ↔ ∃ f ∈ fs, f.IsTrue w row := by
  induction fs with
  | nil => simp [truthOfAny]
  | cons f rest ih => simp [truthOfAny, ih, IsTrue]

lemma collapse_all_isTrue :
    (Catalog.collapse .all fs).IsTrue w row ↔ ∀ f ∈ fs, f.IsTrue w row := by
  match fs with
  | [] => simp [Catalog.collapse, IsTrue, truth, truthOfAll]
  | [f] => simp [Catalog.collapse]
  | f :: g :: rest => exact truthOfAll_eq_true

lemma collapse_any_isTrue :
    (Catalog.collapse .any fs).IsTrue w row ↔ ∃ f ∈ fs, f.IsTrue w row := by
  match fs with
  | [] => simp [Catalog.collapse, IsTrue, truth, truthOfAny]
  | [f] => simp [Catalog.collapse]
  | f :: g :: rest => exact truthOfAny_eq_true

lemma literalEq_isTrue {v : Literal} :
    (literalEq column v).IsTrue w row ↔ Predicate.LiteralHolds row column v := by
  cases v with
  | null => simp [IsTrue, truth, literalTruth, Predicate.LiteralHolds]
  | _ => exact Cell.compareWith_eq_true

lemma principalEq_isTrue :
    (principalEq column).IsTrue w row ↔ w.IsId (row.cell column) :=
  Surroundings.isCaller_eq_true

end Fragment

/-- The related ids that a lookup finds are those of the caller's rows that pass its filter. -/
lemma Surroundings.mem_relatedIds {x : Cell} :
    x ∈ w.relatedIds lookup ↔ ∃ k ∈ (w.claims lookup.claim).rows, w.IsId k.principal ∧
      (∀ filter, lookup.property = some filter → ∃ v ∈ filter.allowed,
        Cell.Matches ((w.claims lookup.claim).property filter.property)
          (k.property filter.property) v.cell) ∧ k.related = x := by
  simp only [relatedIds, List.mem_map, List.mem_filter, beq_iff_eq, and_assoc]
  refine exists_congr fun k => and_congr_right fun _ => ?_
  unfold admits
  cases lookup.property with
  | none => simp [isCaller_eq_true]
  | some filter =>
    simp [isCaller_eq_true, Cell.among_eq_true, and_assoc]

lemma Fragment.inClaim_isTrue :
    (inClaim column lookup).IsTrue w row ↔
      w.IsRelated (row.affinity column) (row.cell column) lookup.claim fun k =>
        ∀ filter, lookup.property = some filter → ∃ v ∈ filter.allowed,
          Cell.Matches ((w.claims lookup.claim).property filter.property)
            (k.property filter.property) v.cell := by
  unfold IsTrue
  simp only [truth, Cell.among_eq_true, Surroundings.mem_relatedIds, Surroundings.IsRelated]
  constructor
  · rintro ⟨y, ⟨k, hk, hid, hkeep, rfl⟩, hmatch⟩
    exact ⟨k, hk, hid, hkeep, hmatch⟩
  · rintro ⟨k, hk, hid, hkeep, hmatch⟩
    exact ⟨_, ⟨k, hk, hid, hkeep, rfl⟩, hmatch⟩

namespace Predicate

mutual

/-- Lowering preserves meaning. -/
lemma lowered_isTrue {p : Predicate} : p.lowered.IsTrue w row ↔ p.Holds w row := by
  match p with
  | .literalEq column value => simp only [lowered, Fragment.literalEq_isTrue, Holds]
  | .identityEq column => simp only [lowered, Fragment.principalEq_isTrue, Holds]
  | .membership column claim => simp [lowered, Fragment.inClaim_isTrue, Holds]
  | .propertyCheck column claim property allowed =>
    simp [lowered, Fragment.inClaim_isTrue, Holds]
  | .and children =>
    rw [lowered, Fragment.collapse_all_isTrue, loweredAll_all_isTrue, Holds]
  | .or children =>
    rw [lowered, Fragment.collapse_any_isTrue, loweredAll_any_isTrue, Holds]

lemma loweredAll_all_isTrue {ps : List Predicate} :
    (∀ f ∈ loweredAll ps, f.IsTrue w row) ↔ HoldAll w row ps := by
  match ps with
  | [] => simp [loweredAll, HoldAll]
  | p :: rest =>
    simp only [loweredAll, List.mem_cons, forall_eq_or_imp, HoldAll, lowered_isTrue,
      loweredAll_all_isTrue]

lemma loweredAll_any_isTrue {ps : List Predicate} :
    (∃ f ∈ loweredAll ps, f.IsTrue w row) ↔ HoldsOne w row ps := by
  match ps with
  | [] => simp [loweredAll, HoldsOne]
  | p :: rest =>
    simp only [loweredAll, List.mem_cons, exists_eq_or_imp, HoldsOne, lowered_isTrue,
      loweredAll_any_isTrue]

end

mutual

/-- What holds of a conjunction exactly if it holds of its parts holds of a lowered predicate
exactly if it holds of the leaves. -/
lemma leaves?_iff {P : Fragment → Prop} (hall : ∀ fs, P (.all fs) ↔ ∀ f ∈ fs, P f)
    {p : Predicate} {cs : List Condition} (h : p.leaves? = some cs) :
    (∀ cond ∈ cs, P cond.fragment) ↔ P p.lowered := by
  match p with
  | .literalEq column value | .identityEq column | .membership column claim
  | .propertyCheck column claim property allowed =>
    rw [leaves?, Option.some.injEq] at h
    subst h
    rw [List.forall_mem_singleton, lowered]
    exact Iff.rfl
  | .and children =>
    rw [lowered, leavesAll?_iff hall h]
    match loweredAll children with
    | [] => exact (hall []).symm
    | [f] => simp [Catalog.collapse]
    | f :: g :: rest => exact (hall (f :: g :: rest)).symm
  | .or children => simp [leaves?] at h

lemma leavesAll?_iff {P : Fragment → Prop} (hall : ∀ fs, P (.all fs) ↔ ∀ f ∈ fs, P f)
    {ps : List Predicate} {cs : List Condition} (h : leavesAll? ps = some cs) :
    (∀ cond ∈ cs, P cond.fragment) ↔ ∀ f ∈ loweredAll ps, P f := by
  match ps with
  | [] =>
    obtain rfl : [] = cs := by simpa [leavesAll?] using h
    simp [loweredAll]
  | p :: rest =>
    rw [leavesAll?] at h
    cases hfirst : leaves? p with
    | none => simp [hfirst] at h
    | some first =>
      cases hmore : leavesAll? rest with
      | none => simp [hfirst, hmore] at h
      | some more =>
        obtain rfl : first ++ more = cs := by simpa [hfirst, hmore] using h
        rw [List.forall_mem_append, leaves?_iff hall hfirst, leavesAll?_iff hall hmore, loweredAll,
          List.forall_mem_cons]

end

/-- The leaves of a predicate without a disjunction mean what it means. -/
lemma leaves?_isTrue {cs : List Condition} (h : p.leaves? = some cs) :
    (∀ cond ∈ cs, cond.fragment.IsTrue w row) ↔ p.Holds w row :=
  (leaves?_iff (fun _ => Fragment.truthOfAll_eq_true) h).trans lowered_isTrue

end Predicate

/-- A rule permits its operation on a row. -/
def Rule.Permits (w : Surroundings) (row : RowValues) (r : Rule) : Prop :=
  match r.predicate with
  | some p => p.Holds w row
  | none => r.operation = .read

/-- A row passes a filter, or every condition of a create guard. -/
def CompiledRule.Passes (w : Surroundings) (row : RowValues) : CompiledRule → Prop
  | .read view _ => view.filter.IsTrue w row
  | .write (.create _ _ conditions) => ∀ g ∈ conditions, g.fragment.IsTrue w row
  | .write (.restrict _ _ _ _ filter) => filter.IsTrue w row

namespace Rule

variable {r : Rule}

lemma filter_isTrue (hp : r.predicate = some p) (absent : Fragment) :
    (r.filter absent).IsTrue w row ↔ p.Holds w row := by
  simp [filter, hp, Predicate.lowered_isTrue]

lemma guardConditions_isTrue (hp : r.predicate = some p) :
    (∀ g ∈ r.guardConditions, g.fragment.IsTrue w row) ↔ p.Holds w row := by
  simp only [guardConditions, hp]
  cases hleaves : p.leaves? with
  | none => simp [Predicate.lowered_isTrue]
  | some cs =>
    simp only [List.forall_mem_map]
    exact Predicate.leaves?_isTrue hleaves

/-- A plan lets through what its rule permits. -/
lemma passes_plan {plan : CompiledRule} (h : r.plan? t = some plan) :
    plan.Passes w row ↔ r.Permits w row := by
  unfold plan? at h
  unfold Permits
  cases hop : r.operation with
  | read =>
    obtain rfl : _ = plan := by simpa [hop] using h
    cases hp : r.predicate with
    | none => simp [CompiledRule.Passes, filter, hp, Fragment.IsTrue, Fragment.truth]
    | some p => exact filter_isTrue hp _
  | create =>
    obtain rfl : _ = plan := by simpa [hop] using h
    cases hp : r.predicate with
    | none => simp [CompiledRule.Passes, guardConditions, hp, Fragment.IsTrue, Fragment.truth]
    | some p => exact guardConditions_isTrue hp
  | update | delete =>
    simp only [hop, Option.map_eq_some_iff] at h
    obtain ⟨key, -, rfl⟩ := h
    cases hp : r.predicate with
    | none => simp [CompiledRule.Passes, filter, hp, Fragment.IsTrue, Fragment.truth]
    | some p => exact filter_isTrue hp _

end Rule

end Meaning

/-- The plans of the four operations with one predicate agree with each other and with the
predicate. Without a predicate every row is read and none is written. -/
theorem compileRule_agrees {c : Catalog} {table : String} {predicate : Option Predicate}
    {projection : Operation → List String} {plan : Operation → CompiledRule}
    (h : ∀ op, c.compileRule ⟨table, op, projection op, predicate⟩ = .ok (plan op)) :
    ∃ view accessor columns conditions key updated deleted,
      plan .read = .read view accessor ∧
      plan .create = .write (.create table columns conditions) ∧
      plan .update = .write (.restrict table .update columns key updated) ∧
      plan .delete = .write (.restrict table .delete columns key deleted) ∧
      ∀ w row, match predicate with
        | some p => List.TFAE [
            view.filter.IsTrue w row,
            ∀ g ∈ conditions, g.fragment.IsTrue w row,
            updated.IsTrue w row,
            deleted.IsTrue w row,
            p.Holds w row]
        | none =>
          view.filter.IsTrue w row ∧ (¬ ∀ g ∈ conditions, g.fragment.IsTrue w row) ∧
            ¬ updated.IsTrue w row ∧ ¬ deleted.IsTrue w row := by
  obtain ⟨-, t, ht, -, -⟩ := Catalog.compileRule_eq_ok.mp (h .read)
  obtain rfl := Catalog.name_of_table? ht
  -- All four rules are on the same table.
  have hplan : ∀ op, Rule.plan? t ⟨t.name, op, projection op, predicate⟩ = some (plan op) := by
    intro op
    obtain ⟨-, t', ht', -, hplan⟩ := Catalog.compileRule_eq_ok.mp (h op)
    obtain rfl : t = t' := Option.some.inj (ht.symm.trans ht')
    exact hplan
  obtain ⟨key, hkey, hupdate⟩ := Option.map_eq_some_iff.mp (hplan .update)
  obtain ⟨key', hkey', hdelete⟩ := Option.map_eq_some_iff.mp (hplan .delete)
  obtain rfl : key = key' := Option.some.inj (hkey.symm.trans hkey')
  have hread := Option.some.inj (hplan .read)
  have hcreate := Option.some.inj (hplan .create)
  refine ⟨_, _, _, _, key, _, _, hread.symm, hcreate.symm, hupdate.symm, hdelete.symm, ?_⟩
  intro w row
  have hpasses : ∀ op, (plan op).Passes w row ↔
      Rule.Permits w row ⟨t.name, op, projection op, predicate⟩ :=
    fun op => Rule.passes_plan (hplan op)
  have hpassesRead := hread ▸ hpasses .read
  have hpassesCreate := hcreate ▸ hpasses .create
  have hpassesUpdate := hupdate ▸ hpasses .update
  have hpassesDelete := hdelete ▸ hpasses .delete
  cases predicate with
  | none =>
    refine ⟨hpassesRead.mpr rfl, ?_, ?_, ?_⟩
    · exact fun hall => nomatch hpassesCreate.mp hall
    · exact fun hall => nomatch hpassesUpdate.mp hall
    · exact fun hall => nomatch hpassesDelete.mp hall
  | some p =>
    refine List.tfae_of_forall (p.Holds w row) _ ?_
    simp only [List.forall_mem_cons]
    exact ⟨hpassesRead, hpassesCreate, hpassesUpdate, hpassesDelete, trivial, by simp⟩

/-- A conjunction with a disjunction in it, on a table with a claim. -/
theorem compileRule_agrees_docs :
    let c : Catalog := ⟨[⟨"docs", ["id", "owner", "team"], .column "id"⟩],
      [⟨"teams", .table "members", "person", "team", ["role"]⟩], []⟩
    let p : Predicate := .and [.or [.identityEq "owner", .literalEq "owner" .null],
      .and [.propertyCheck "team" "teams" "role" [.text "lead"]]]
    ∃ plan : Operation → CompiledRule,
      (∀ op, c.compileRule ⟨"docs", op, [], some p⟩ = .ok (plan op)) ∧
      ∃ view accessor columns conditions key updated deleted,
        plan .read = .read view accessor ∧
        plan .create = .write (.create "docs" columns conditions) ∧
        plan .update = .write (.restrict "docs" .update columns key updated) ∧
        plan .delete = .write (.restrict "docs" .delete columns key deleted) ∧
        ∀ w row, List.TFAE [view.filter.IsTrue w row, ∀ g ∈ conditions, g.fragment.IsTrue w row,
          updated.IsTrue w row, deleted.IsTrue w row, p.Holds w row] := by
  intro c p
  have h : ∀ op, ∃ plan, c.compileRule ⟨"docs", op, [], some p⟩ = .ok plan := by
    intro op
    cases op <;> exact isOk_iff.mp (by decide)
  choose plan hplan using h
  exact ⟨plan, hplan, compileRule_agrees hplan⟩

end RowPolicy
