import RowPolicy.Proofs.Admin.Run

/-!
# Entries of the registry

The registry holds what compiling the definitions in force yields, and nothing else. A rule may have
been compiled as it was given and not as it is read back: the two differ if a literal is not read
back as it was written.
-/

namespace RowPolicy

open Store

/-! ### Kinds of artifacts -/

namespace Predicate

mutual

def hasOr : Predicate → Bool
  | .and children => anyHasOr children
  | .or _ => true
  | _ => false

def anyHasOr : List Predicate → Bool
  | [] => false
  | p :: rest => hasOr p || anyHasOr rest

end

mutual

lemma leaves?_isNone (p : Predicate) : p.leaves?.isNone = p.hasOr := by
  match p with
  | .literalEq _ _ | .identityEq _ | .membership _ _ | .propertyCheck _ _ _ _ => rfl
  | .and children => rw [leaves?, hasOr, leavesAll?_isNone]
  | .or _ => rfl

lemma leavesAll?_isNone (ps : List Predicate) : (leavesAll? ps).isNone = anyHasOr ps := by
  match ps with
  | [] => rfl
  | p :: rest =>
    rw [leavesAll?, anyHasOr, ← leaves?_isNone p, ← leavesAll?_isNone rest]
    cases leaves? p <;> cases leavesAll? rest <;> rfl

end

mutual

lemma hasOr_reread (p : Predicate) : p.reread.hasOr = p.hasOr := by
  match p with
  | .literalEq _ _ | .identityEq _ | .membership _ _ | .propertyCheck _ _ _ _ => rfl
  | .and children => rw [reread, hasOr, hasOr, anyHasOr_rereadAll]
  | .or _ => rfl

lemma anyHasOr_rereadAll (ps : List Predicate) : anyHasOr (rereadAll ps) = anyHasOr ps := by
  match ps with
  | [] => rfl
  | p :: rest => rw [rereadAll, anyHasOr, anyHasOr, hasOr_reread, anyHasOr_rereadAll]

end

end Predicate

variable {r : Rule} {plan : CompiledRule}

namespace Rule

/-- The kinds of the artifacts of a rule: a read rule has a view, and an accessor unless there is a
disjunction; a rule for writing has a guard. -/
def artifactKinds (r : Rule) : List ArtifactKind :=
  match r.operation with
  | .read => if r.predicate.any Predicate.hasOr then [.readView] else [.readView, .readAccessor]
  | _ => [.writeGuard]

lemma artifactKinds_reread (r : Rule) : r.reread.artifactKinds = r.artifactKinds := by
  cases hp : r.predicate <;> simp [artifactKinds, reread, hp, Predicate.hasOr_reread]

lemma accessor_isOk (r : Rule) (t : TableShape) :
    (r.accessor t).isOk = !r.predicate.any Predicate.hasOr := by
  unfold accessor
  cases r.predicate with
  | none => rfl
  | some p =>
    rw [Option.map_some, Option.any_some, ← Predicate.leaves?_isNone]
    cases p.leaves? <;> rfl

lemma kinds_renderRule {n : Naming} {t : TableShape} (h : r.plan? t = some plan) :
    (n.renderRule plan).map Rendered.kind = r.artifactKinds := by
  unfold plan? at h
  unfold artifactKinds
  cases hop : r.operation with
  | read =>
    rw [hop] at h
    cases h
    have hok := r.accessor_isOk t
    cases haccessor : r.accessor t with
    | ok a | error f =>
      rw [haccessor, eq_comm, Bool.not_eq_eq_eq_not] at hok
      simp [Naming.renderRule, hok, Except.isOk, Except.toBool]
  | create =>
    rw [hop] at h
    cases h
    rfl
  | update | delete =>
    rw [hop] at h
    obtain ⟨key, -, rfl⟩ := Option.map_eq_some_iff.mp h
    rfl

end Rule

/-! ### Entries -/

/-- What the registry says of an artifact: its owner, what was rendered and the fingerprint. -/
abbrev Entry := Uuid × Rendered × String

def ArtifactRecord.entry (a : ArtifactRecord) : Entry := (a.owner, a.rendered, a.fingerprint)

def Rendered.entry (owner : Uuid) (y : Rendered) : Entry := (owner, y, y.body.fingerprint)

def Store.Contents.definitions (c : Contents) : List Definition :=
  c.claims.map .claim ++ c.rules.map .rule

lemma Store.Contents.mem_definitions {c : Contents} {x : Definition} :
    x ∈ c.definitions ↔ c.Defines x := by
  cases x <;> simp [definitions, Defines]

namespace Admin

variable {n : Naming} {ids : Nat → Uuid} {base user : Database} {clash : String → Prop} {w : Work}
  {c : Contents} {past : List State} {x : State} {catalog : Catalog}

lemma Defined.nodup_definitions (h : Defined n ids base w c) : c.definitions.Nodup := by
  refine List.nodup_append.mpr ⟨?_, ?_, ?_⟩
  · exact h.stored.claims.keys.of_map.map fun _ _ => Definition.claim.inj
  · exact h.stored.rules.keys.of_map.map fun _ _ => Definition.rule.inj
  · intro x hx y hy
    obtain ⟨k, -, rfl⟩ := List.mem_map.mp hx
    obtain ⟨r, -, rfl⟩ := List.mem_map.mp hy
    exact Definition.noConfusion

/-- The registry is the entries of the stored definitions. -/
lemma Sound.exists_entries (h : Sound n ids base clash (fun _ => True) w c) :
    ∃ f : Definition → List Rendered, (∀ x, c.Defines x → x.Renders n w.catalog (f x)) ∧
      (c.artifacts.map ArtifactRecord.entry).Perm
        (c.definitions.flatMap fun x => (f x).map (Rendered.entry x.id)) := by
  have hserved : ∀ x, c.Defines x → ∃ xs, x.Renders n w.catalog xs ∧ c.Serves x.id xs :=
    fun x hx => h.registered.served x hx trivial
  choose! f hrenders hserves using hserved
  refine ⟨f, hrenders, (List.perm_ext_iff_of_nodup ?_ ?_).mpr fun e => ?_⟩
  · -- An identifier is that of one artifact only.
    have hkeys : ((c.artifacts.map ArtifactRecord.entry).map fun e => e.2.1.identifier).Nodup := by
      rw [List.map_map]
      exact h.defined.stored.artifacts.keys
    exact hkeys.of_map
  · refine List.nodup_flatMap.mpr ⟨fun x hx => ?_, ?_⟩
    · have hpairwise := renders_pairwise (hrenders x (Contents.mem_definitions.mp hx))
      refine List.pairwise_map.mpr (hpairwise.imp fun hkinds heq => hkinds.1 ?_)
      exact congrArg (fun e : Entry => e.2.1.kind) heq
    · -- Definitions have identifiers of their own.
      refine h.defined.nodup_definitions.imp_of_mem fun {x y} hx hy hne e hex hey => hne ?_
      rw [Contents.mem_definitions] at hx hy
      obtain ⟨_, -, rfl⟩ := List.mem_map.mp hex
      obtain ⟨_, -, heq⟩ := List.mem_map.mp hey
      exact h.defined.ids_injective x y hx hy (congrArg Prod.fst heq).symm
  · rw [List.mem_map, List.mem_flatMap]
    constructor
    · rintro ⟨a, ha, rfl⟩
      have howned := h.registered.owned a ha
      obtain ⟨x, hx, howner, -⟩ := howned.exists_definition
      have hmem : a.rendered ∈ f x := (hserves x hx a.rendered).mp ⟨a, ha, howner, rfl⟩
      refine ⟨x, Contents.mem_definitions.mpr hx, List.mem_map.mpr ⟨a.rendered, hmem, ?_⟩⟩
      rw [Rendered.entry, ArtifactRecord.entry, howner, howned.fingerprint]
      rfl
    · rintro ⟨x, hx, hmem⟩
      obtain ⟨y, hy, rfl⟩ := List.mem_map.mp hmem
      obtain ⟨a, ha, howner, rfl⟩ := (hserves x (Contents.mem_definitions.mp hx) y).mpr hy
      refine ⟨a, ha, ?_⟩
      rw [Rendered.entry, ArtifactRecord.entry, howner, (h.registered.owned a ha).fingerprint]
      rfl

/-- A plan of a stored rule, given the record that is read back of it: the rule was compiled as it
is read back or as it was given. -/
structure HasPlan (n : Naming) (catalog : Catalog) (rules : List Rule) (r : RuleRecord)
    (plan : CompiledRule) : Prop where
  exists_rule : ∃ d, (d = r.body ∨ d ∈ rules ∧ d.reread = r.body) ∧
    catalog.compileRule d = .ok plan
  kinds : (n.renderRule plan).map Rendered.kind = r.body.artifactKinds

lemma exists_hasPlan {b : RuleRecord} {xs : List Rendered} (hb : b ∈ c.rules)
    (h : (Definition.rule b).Renders n catalog xs) :
    ∃ plan, HasPlan n catalog (policyOf c).rules b.reread plan ∧ xs = n.renderRule plan := by
  obtain ⟨d, plan, hd, hcompile, hxs⟩ := h
  obtain ⟨-, t, -, -, hplan⟩ := Catalog.compileRule_eq_ok.mp hcompile
  refine ⟨plan, ⟨⟨d, ?_, hcompile⟩, ?_⟩, hxs⟩
  · obtain rfl | rfl := hd
    · exact .inr ⟨List.mem_map_of_mem hb, rfl⟩
    · exact .inl rfl
  · rw [Rule.kinds_renderRule hplan]
    obtain rfl | rfl := hd
    · exact (Rule.artifactKinds_reread b.body).symm
    · rfl

lemma Sound.exists_plans (h : Sound n ids base clash (fun _ => True) w c) :
    ∃ plan : RuleRecord → CompiledRule,
      (∀ b ∈ c.rules, HasPlan n w.catalog (policyOf c).rules b.reread (plan b.reread)) ∧
      (c.artifacts.map ArtifactRecord.entry).Perm
        (c.claims.map (fun k => (n.renderClaim k.body).entry k.id) ++
          (c.rules.map RuleRecord.reread).flatMap fun r =>
            (n.renderRule (plan r)).map (Rendered.entry r.id)) := by
  obtain ⟨f, hrenders, hentries⟩ := h.exists_entries
  -- The identifier of a record tells the rule.
  have hplans : ∀ r, (∃ b ∈ c.rules, b.reread = r) → ∃ plan,
      HasPlan n w.catalog (policyOf c).rules r plan ∧
        ∀ b ∈ c.rules, b.reread = r → f (.rule b) = n.renderRule plan := by
    rintro _ ⟨b, hb, rfl⟩
    obtain ⟨plan, hplan, hxs⟩ := exists_hasPlan hb (hrenders (.rule b) hb)
    refine ⟨plan, hplan, fun b' hb' hread => ?_⟩
    have hid : b'.reread.id = b.reread.id := congrArg Stamped.id hread
    cases h.defined.ids_injective (.rule b') (.rule b) hb' hb hid
    exact hxs
  choose! plan hplan hrendered using hplans
  refine ⟨plan, fun b hb => hplan _ ⟨b, hb, rfl⟩, ?_⟩
  have hclaims : (c.claims.map Definition.claim).flatMap
      (fun y => (f y).map (Rendered.entry y.id)) =
        c.claims.map fun k => (n.renderClaim k.body).entry k.id := by
    rw [List.flatMap_map, List.map_eq_flatMap]
    refine List.flatMap_congr fun k hk => ?_
    rw [(hrenders (.claim k) hk).2]
    rfl
  have hrules : (c.rules.map Definition.rule).flatMap
      (fun y => (f y).map (Rendered.entry y.id)) =
        (c.rules.map RuleRecord.reread).flatMap fun r =>
          (n.renderRule (plan r)).map (Rendered.entry r.id) := by
    rw [List.flatMap_map, List.flatMap_map]
    refine List.flatMap_congr fun b hb => ?_
    rw [hrendered b.reread ⟨b, hb, rfl⟩ b hb rfl]
    rfl
  rwa [Contents.definitions, List.flatMap_append, hclaims, hrules] at hentries

/-- If the rules can be read, the registry holds a view for each claim and the artifacts that
compiling each rule against the current catalog yields, under the rule's identifier and with their
fingerprints, and nothing else. A rule is compiled as it is read back or as it was given. -/
theorem registry_of_reached {rs : List RuleRecord} (hu : user.IsUnmanaged)
    (h : Reached n ids user past x) (hids : Set.InjOn ids (Set.Iio x.issued))
    (hrs : Store.rules x.db = .ok rs) :
    ∃ ks as catalog, Store.claims x.db = .ok ks ∧ Store.artifacts x.db = .ok as ∧
      loadCatalog n x.db = .ok catalog ∧ (∀ k ∈ ks, catalog.compileClaim k.body = .ok ()) ∧
      ∃ plan : RuleRecord → CompiledRule,
        (∀ r ∈ rs, HasPlan n catalog x.policy.rules r (plan r)) ∧
        (as.map ArtifactRecord.entry).Perm
          (ks.map (fun k => (n.renderClaim k.body).entry k.id) ++
            rs.flatMap fun r => (n.renderRule (plan r)).map (Rendered.entry r.id)) := by
  obtain ⟨catalog₀, c, hpolicy, hsound₀⟩ := h.exists_contents hu hids
  have hc : Contains x.db c := hsound₀.defined.stored
  obtain ⟨hreadable, hrperm⟩ := hc.rules_eq_ok hrs
  obtain ⟨catalog, hload⟩ := loadCatalog_isOk (n := n) hc hreadable
  have hsound := hsound₀.reload hload
  obtain ⟨ks, hks, hkperm⟩ := hc.claims_isOk
  obtain ⟨as, has, haperm⟩ := hc.artifacts_isOk
  obtain ⟨plan, hplan, hentries⟩ := hsound.exists_plans
  refine ⟨ks, as, catalog, hks, has, hload, fun k hk => ?_, plan, fun r hr => ?_, ?_⟩
  · obtain ⟨xs, hrenders, -⟩ :=
      hsound.registered.served (.claim k) (hkperm.mem_iff.mp hk) trivial
    exact hrenders.1
  · obtain ⟨b, hb, rfl⟩ := List.mem_map.mp (hrperm.mem_iff.mp hr)
    exact hpolicy ▸ hplan b hb
  · exact ((haperm.map _).trans hentries).trans
      ((hkperm.map _).symm.append (hrperm.flatMap_right _).symm)

/-! ### A literal that is read back as another one -/

def measured : Database :=
  { tables := [{ name := "t", columns := [{ name := "x", type := "REAL" }] }] }

/-- A rule that compares with 31.245270191439438, which is read back as 31.24527019143944. -/
def measuredRule : Rule :=
  ⟨"t", .read, [], some (.literalEq "x" (.real ⟨0x403f3eca06faea82⟩))⟩

def measuredState : State :=
  (Call.defineRule measuredRule).perform ⟨⟨"tg_"⟩, Uuid.nth, default⟩ false
    ⟨(Admin.start false measured).1, 0, {}⟩

/-- The text of the view of a rule. -/
def measuredSql (r : Rule) : String :=
  Naming.readViewSql ⟨"tg_"⟩ ⟨r.table, r.projection, r.filter .always⟩

lemma measured_isUnmanaged : measured.IsUnmanaged := by decide

lemma measuredState_reached : Reached ⟨"tg_"⟩ Uuid.nth measured
    [⟨(Admin.start false measured).1, 0, {}⟩] measuredState :=
  .call .start (by decide) false _

lemma measuredState_eval : measuredState.issued = 1 ∧
    measuredState.db.views.map View.sql = [measuredSql measuredRule] := by
  set_option maxRecDepth 100000 in decide +kernel

lemma measuredRule_reread : measuredSql measuredRule.reread ≠ measuredSql measuredRule ∧
    ((measured.managed.catalog ⟨"tg_"⟩).compileRule measuredRule.reread).isOk = true := by
  set_option maxRecDepth 100000 in decide +kernel

lemma measuredState_ids : Set.InjOn Uuid.nth (Set.Iio measuredState.issued) :=
  Uuid.injOn_nth (by rw [measuredState_eval.1]; omega)

lemma measuredState_rules : measuredState.policy.rules = [measuredRule] := by
  have hpolicy : measuredState.policy = Policy.setRule {} measuredRule := by
    unfold measuredState
    exact Call.perform_policy (by rw [← measuredState, measuredState_eval.1]; decide)
  rw [hpolicy]
  rfl

lemma measuredRule_isReadable : measuredRule.IsReadable := by
  rintro p ⟨⟩
  decide +kernel

lemma Reached.exists_rule (h : Reached n ids user past x) (hu : user.IsUnmanaged)
    (hids : Set.InjOn ids (Set.Iio x.issued)) (hr : r ∈ x.policy.rules) (hread : r.IsReadable) :
    ∃ record, Store.rule x.db r.key = .ok (some record) ∧ record.body = r.reread := by
  obtain ⟨catalog, c, hpolicy, hsound⟩ := h.exists_contents hu hids
  rw [← hpolicy] at hr
  obtain ⟨b, hb, rfl⟩ := List.mem_map.mp hr
  have hrule := hsound.defined.stored.rule_eq_ok.mpr (.inr ⟨b, hb, rfl, hread, rfl⟩)
  exact ⟨_, hrule, rfl⟩

/-- A rule that is in force alone is the one record that is read, and it compiles against the
current catalog if it does against the tables. -/
lemma Reached.exists_record (h : Reached n ids user past x) (hu : user.IsUnmanaged)
    (hids : Set.InjOn ids (Set.Iio x.issued)) (hrules : x.policy.rules = [r]) (hr : r.IsReadable)
    (hcompile : ((user.managed.catalog n).compileRule r.reread).isOk = true)
    (hclaims : ∀ name, r.references name = false) :
    ∃ record catalog plan, Store.rules x.db = .ok [record] ∧ record.body = r.reread ∧
      loadCatalog n x.db = .ok catalog ∧ catalog.compileRule r.reread = .ok plan := by
  obtain ⟨catalog₀, c, hpolicy, hsound⟩ := h.exists_contents hu hids
  have hbodies : c.rules.map Stamped.body = [r] := (congrArg Policy.rules hpolicy).trans hrules
  obtain ⟨b, hb, rfl⟩ := List.map_eq_singleton_iff.mp hbodies
  have hreadable : ∀ b' ∈ c.rules, b'.body.IsReadable := by
    rw [hb]
    simpa using hr
  have hc := hsound.defined.stored
  obtain ⟨rs, hrs⟩ := hc.rules_isOk hreadable
  have hperm := (hc.rules_eq_ok hrs).2
  rw [hb, List.map_singleton, List.perm_singleton] at hperm
  obtain ⟨catalog, hload⟩ := loadCatalog_isOk (n := n) hc hreadable
  obtain ⟨plan, hplan⟩ := RowPolicy.isOk_iff.mp hcompile
  refine ⟨_, catalog, plan, hperm ▸ hrs, rfl, hload, Catalog.compileRule_congr hplan
    (hsound.reload hload).defined.catalog.tables fun name hname => ?_⟩
  rw [Rule.references_reread, hclaims name] at hname
  cases hname

lemma renderRule_read (hr : r.operation = .read) (h : catalog.compileRule r = .ok plan) :
    ∃ more, n.renderRule plan = ⟨n.readView r.table, .readView, r.table, some .read,
      .view (n.readViewSql ⟨r.table, r.projection, r.filter .always⟩)⟩ :: more := by
  obtain ⟨-, t, ht, -, hplan⟩ := Catalog.compileRule_eq_ok.mp h
  have hname : t.name = r.table := Keyed.key_of_get? ht
  rw [Rule.plan?, hr] at hplan
  cases hplan
  rw [hname]
  exact ⟨_, rfl⟩

lemma Reached.artifacts_isOk (h : Reached n ids user past x) (hu : user.IsUnmanaged)
    (hids : Set.InjOn ids (Set.Iio x.issued)) : ∃ as, Store.artifacts x.db = .ok as := by
  obtain ⟨catalog, c, -, hsound⟩ := h.exists_contents hu hids
  obtain ⟨as, has, -⟩ := hsound.defined.stored.artifacts_isOk
  exact ⟨as, has⟩

/-- If the registry holds what a read rule compiles to, its view is among the views. -/
lemma Reached.sql_mem_views {as : List ArtifactRecord} {id : Uuid} (h : Reached n ids user past x)
    (hu : user.IsUnmanaged) (hids : Set.InjOn ids (Set.Iio x.issued))
    (has : Store.artifacts x.db = .ok as) (hr : r.operation = .read)
    (hplan : catalog.compileRule r = .ok plan) (hperm : (as.map ArtifactRecord.entry).Perm
      ((n.renderRule plan).map (Rendered.entry id))) :
    n.readViewSql ⟨r.table, r.projection, r.filter .always⟩ ∈ x.db.views.map View.sql := by
  obtain ⟨more, hmore⟩ := renderRule_read (n := n) hr hplan
  rw [hmore, List.map_cons] at hperm
  obtain ⟨a, ha, hentry⟩ := List.mem_map.mp (hperm.mem_iff.mpr List.mem_cons_self)
  have hrendered := congrArg (fun e : Entry => e.2.1) hentry
  have hinstalled := h.installed_readView hu hids has ha (congrArg Rendered.kind hrendered)
    (congrArg Rendered.body hrendered)
  obtain ⟨q, rest, -, hview⟩ := hinstalled.exists_view
  exact List.mem_map_of_mem (f := View.sql) (List.mem_of_find?_eq_some hview)

theorem registry_of_reached_measured : measured.IsUnmanaged ∧
    Reached ⟨"tg_"⟩ Uuid.nth measured [⟨(Admin.start false measured).1, 0, {}⟩] measuredState ∧
    Set.InjOn Uuid.nth (Set.Iio measuredState.issued) ∧
    ∃ record as catalog plan, Store.rules measuredState.db = .ok [record] ∧
      Store.artifacts measuredState.db = .ok as ∧
      HasPlan ⟨"tg_"⟩ catalog [measuredRule] record plan := by
  obtain ⟨record, catalog, plan, hrecord, hbody, hload, hplan⟩ :=
    measuredState_reached.exists_record measured_isUnmanaged measuredState_ids measuredState_rules
      measuredRule_isReadable measuredRule_reread.2 (fun _ => rfl)
  obtain ⟨ks, as, catalog', hks, has, hload', hclaims, plans, hplans, hentries⟩ :=
    registry_of_reached measured_isUnmanaged measuredState_reached measuredState_ids hrecord
  refine ⟨measured_isUnmanaged, measuredState_reached, measuredState_ids, record, as, catalog',
    plans record, hrecord, has, ?_⟩
  rw [← measuredState_rules]
  exact hplans record List.mem_cons_self

/-- The registry can hold what a rule compiled to as it was given, and not what the record that is
read back compiles to. -/
theorem registry_keeps_given_literal :
    Reached ⟨"tg_"⟩ Uuid.nth measured [⟨(Admin.start false measured).1, 0, {}⟩] measuredState ∧
    ∃ record as catalog plan, Store.rules measuredState.db = .ok [record] ∧
      Store.artifacts measuredState.db = .ok as ∧
      loadCatalog ⟨"tg_"⟩ measuredState.db = .ok catalog ∧
      catalog.compileRule record.body = .ok plan ∧
      ¬ (as.map ArtifactRecord.entry).Perm
        ((Naming.renderRule ⟨"tg_"⟩ plan).map (Rendered.entry record.id)) := by
  obtain ⟨record, catalog, plan, hrecord, hbody, hload, hplan⟩ :=
    measuredState_reached.exists_record measured_isUnmanaged measuredState_ids measuredState_rules
      measuredRule_isReadable measuredRule_reread.2 (fun _ => rfl)
  obtain ⟨as, has⟩ := measuredState_reached.artifacts_isOk measured_isUnmanaged measuredState_ids
  refine ⟨measuredState_reached, record, as, catalog, plan, hrecord, has, hload, ?_, ?_⟩
  · rw [hbody, hplan]
  intro hperm
  have hsql := measuredState_reached.sql_mem_views measured_isUnmanaged measuredState_ids has
    rfl hplan hperm
  rw [measuredState_eval.2] at hsql
  exact measuredRule_reread.1 (List.mem_singleton.mp hsql)

end Admin

end RowPolicy
