import RowPolicy.Proofs.Admin.Lockstep
import RowPolicy.Proofs.Admin.Readback
import RowPolicy.Proofs.Admin.Registration
import RowPolicy.Proofs.Ordering

/-!
# Documents and their parts

A document is applied with one catalog that is kept up to date from part to part. Calls that define
the parts one by one load theirs from the store each time. Both go in step: the catalog that is
kept is the one that would be loaded, up to the literals of its rules, since a list in the order of
keys is given by its members.
-/

namespace RowPolicy

open Store

/-! ### Lists in the order of keys -/

namespace Keyed

variable {α : Type} {key : α → RuleKey} {a x : α} {as bs : List α}

def IsOrdered (key : α → RuleKey) (as : List α) : Prop :=
  as.Pairwise fun x y => (key x).lt (key y) = true

lemma IsOrdered.insert (h : IsOrdered key as) (a : α) :
    IsOrdered key (Keyed.insert RuleKey.lt key a as) := by
  induction as with
  | nil => exact List.pairwise_singleton _ _
  | cons b bs ih =>
    obtain ⟨hb, hbs⟩ := List.pairwise_cons.mp h
    rw [Keyed.insert]
    split_ifs with hkey hlt
    · exact List.pairwise_cons.mpr ⟨fun x hx => eq_of_beq hkey ▸ hb x hx, hbs⟩
    · refine List.pairwise_cons.mpr ⟨fun x hx => ?_, h⟩
      obtain rfl | hx := List.mem_cons.mp hx
      · exact hlt
      · exact RuleKey.lt_trans hlt (hb x hx)
    · refine List.pairwise_cons.mpr ⟨fun x hx => ?_, ih hbs⟩
      obtain rfl | hx := mem_insert hx
      · exact RuleKey.lt_of_not_lt (fun heq => hkey (by simp [heq])) hlt
      · exact hb x hx

lemma IsOrdered.nodup_keys (h : IsOrdered key as) : (as.map key).Nodup :=
  List.pairwise_map.mpr (h.imp fun hlt heq => by
    rw [heq, RuleKey.lt_irrefl] at hlt
    cases hlt)

/-- A list in the order of keys is given by its members. -/
lemma IsOrdered.ext (has : IsOrdered key as) (hbs : IsOrdered key bs)
    (h : ∀ x, x ∈ as ↔ x ∈ bs) : as = bs := by
  refine List.Perm.eq_of_pairwise (fun x y _ _ hxy hyx => ?_) has hbs
    ((List.perm_ext_iff_of_nodup has.nodup_keys.of_map hbs.nodup_keys.of_map).mpr h)
  have hself := RuleKey.lt_trans hxy hyx
  rw [RuleKey.lt_irrefl] at hself
  cases hself

lemma IsOrdered.mem_insert (h : IsOrdered key as) :
    x ∈ Keyed.insert RuleKey.lt key a as ↔ x = a ∨ x ∈ as ∧ key x ≠ key a := by
  constructor
  · intro hx
    by_cases hkey : key x = key a
    · exact .inl (List.inj_on_of_nodup_map (h.insert a).nodup_keys hx mem_insert_self hkey)
    · exact (Keyed.mem_insert hx).imp_right fun hx => ⟨hx, hkey⟩
  · rintro (rfl | ⟨hx, hne⟩)
    · exact mem_insert_self
    · exact mem_insert_of_ne hx hne

end Keyed

def Document.parts (d : Document) : List Admin.Call :=
  d.claims.map .defineClaim ++ d.orderedRules.map .defineRule

/-- The identifier and the definition of a record, without its times. -/
def Stamped.content {α : Type} (r : Stamped α) : Uuid × α := (r.id, r.body)

namespace Admin

variable {n : Naming} {ids : Nat → Uuid} {base user : Database} {clash : String → Prop}
  {past : List State} {x y : State} {w w' : Work} {c c' : Contents} {catalog catalog' : Catalog}

/-! ### Catalogs that are kept and catalogs that are loaded -/

/-- The rules of a catalog are those of the store, in the order of their keys. -/
structure Lists (catalog : Catalog) (c : Contents) : Prop where
  ordered : Keyed.IsOrdered Prod.fst (catalog.rules.map Rule.outline)
  rules : ∀ o, o ∈ catalog.rules.map Rule.outline ↔ ∃ r ∈ c.rules, r.body.outline = o

namespace Lists

lemma outlines_eq (h : Lists catalog c) (h' : Lists catalog' c) :
    catalog'.rules.map Rule.outline = catalog.rules.map Rule.outline :=
  h'.ordered.ext h.ordered fun o => (h'.rules o).trans (h.rules o).symm

lemma insertRule {d : Rule} {r : RuleRecord} (h : Lists catalog c)
    (hd : d.outline = r.body.outline)
    (hrules : ∀ b, b ∈ c'.rules ↔ b = r ∨ b ∈ c.rules ∧ b.body.key ≠ r.body.key) :
    Lists (catalog.insertRule d) c' := by
  have hmap := catalog.outlines_insertRule d
  refine ⟨hmap ▸ h.ordered.insert _, fun o => ?_⟩
  rw [hmap, h.ordered.mem_insert, h.rules, hd]
  constructor
  · rintro (rfl | ⟨⟨b, hb, rfl⟩, hne⟩)
    · exact ⟨r, (hrules r).mpr (.inl rfl), rfl⟩
    · exact ⟨b, (hrules b).mpr (.inr ⟨hb, hne⟩), rfl⟩
  · rintro ⟨b, hb, rfl⟩
    obtain rfl | ⟨hb, hne⟩ := (hrules b).mp hb
    · exact .inl rfl
    · exact .inr ⟨⟨b, hb, rfl⟩, hne⟩

end Lists

lemma lists_of_loadCatalog (hc : Contains w.db c) (h : loadCatalog n w.db = .ok catalog) :
    Lists catalog c := by
  have hclaims : ∀ (ks : List ClaimRecord) (catalog : Catalog),
      (ks.foldl (fun catalog k => catalog.insertClaim k.body) catalog).rules = catalog.rules := by
    intro ks
    induction ks with
    | nil => exact fun _ => rfl
    | cons k ks ih => exact fun catalog => ih (catalog.insertClaim k.body)
  unfold loadCatalog at h
  obtain ⟨ks, -, h⟩ := bind_eq_ok.mp h
  obtain ⟨rs, hrs, h⟩ := bind_eq_ok.mp h
  cases h
  obtain ⟨-, hperm⟩ := hc.rules_eq_ok (mapError_eq_ok.mp hrs)
  obtain ⟨stored, hstored, rfl⟩ := exists_map_of_perm hperm
  have hnone : (ks.foldl (fun c k => c.insertClaim k.body) (w.db.catalog n)).rules = [] :=
    (hclaims ks _).trans (catalog_definitions n w.db).2
  have hstart : Lists (ks.foldl (fun c k => c.insertClaim k.body) (w.db.catalog n)) {} :=
    ⟨by rw [hnone]; exact List.Pairwise.nil, by simp [hnone]⟩
  have hlists := Keyed.foldl_insert (f := fun catalog r => catalog.insertRule r.reread.body)
    (fun rs catalog => Lists catalog { rules := rs }) hstart
    (fun _ r _ hmem h => h.insertRule (r := r) (Rule.outline_reread _) hmem)
    (((hstored.map fun r => r.body.key).nodup_iff).mpr hc.rules.keys)
  rw [List.foldl_map]
  refine ⟨hlists.ordered, fun o => (hlists.rules o).trans ?_⟩
  simp [hstored.mem_iff]

/-- A catalog that agrees with the store and lists its rules is like the one that is loaded. -/
lemma catalog_alike {shapes : List TableShape} (h : Agrees shapes catalog c)
    (h' : Agrees shapes catalog' c) (hlists : Lists catalog c) (hlists' : Lists catalog' c) :
    catalog.Alike catalog' :=
  ⟨h'.tables.trans h.tables.symm, h.claim?_eq h', hlists.outlines_eq hlists'⟩

/-! ### Parts -/

/-- A call that defines a claim, or a rule that can be read back. -/
def Call.IsDefinition : Call → Prop
  | .defineClaim _ => True
  | .defineRule r => r.IsReadable
  | _ => False

section

variable {s s' : Setting} {call : Call}

lemma settled_inStep {α : Type} {r r' : Result (Work × α)}
    (h : InStep (fun x y => x.1.Alike y.1) r r') :
    InStep (fun x y => x.1.Alike y.1) (settled r) (settled r') := by
  cases h with
  | ok h => exact .ok h
  | error e => exact .error e

lemma steps_inStep (hs : s.Alike s') (h : w.Alike w') (hcall : call.IsDefinition) :
    InStep (fun x y => x.1.Alike y.1) (call.steps s w) (call.steps s' w') := by
  cases call with
  | defineClaim k => exact settled_inStep (defineClaim_inStep hs h)
  | defineRule r => exact settled_inStep (defineRule_inStep hs h hcall)
  | dropRule _ | dropRules _ | dropClaim _ | rebuild | applyDocument _ => exact absurd hcall id

lemma recordOf_issued_le {α : Type} {existing : Option (Stamped α)} {body : α}
    {record : Stamped α} (h : recordOf s w existing body = (w', record)) :
    w'.issued ≤ w.issued + 1 := by
  obtain ⟨-, -, -, -, ⟨_, -, -, -, hissued⟩ | ⟨-, -, -, hissued⟩⟩ := recordOf_eq h <;> omega

lemma steps_issued_le (hcall : call.IsDefinition) (h : call.steps s w = .ok (w', ())) :
    w'.issued ≤ w.issued + 1 := by
  cases call with
  | defineClaim k =>
    obtain ⟨_, h⟩ := settled_eq_ok h
    obtain ⟨existing, w₁, record, removed, db₁, db₂, summary₂, -, hrecord, -, -, -, hrecompile⟩ :=
      defineClaim_eq_ok h
    have hle := recordOf_issued_le hrecord
    exact (recompileAll_issued hrecompile).trans_le hle
  | defineRule r =>
    obtain ⟨_, h⟩ := settled_eq_ok h
    obtain ⟨existing, w₁, record, plan, removed, db₁, -, hrecord, -, -, -, -, hissued⟩ :=
      defineRule_eq_ok h
    exact hissued.trans_le (recordOf_issued_le hrecord)
  | dropRule _ | dropRules _ | dropClaim _ | rebuild | applyDocument _ => exact absurd hcall id

lemma recompileAll_catalog {ks : List RuleKey} {before after : Work × Summary}
    (h : ks.foldlM (Admin.recompile s) before = .ok after) :
    after.1.catalog = before.1.catalog := by
  refine foldlM_induction (fun _ (middle : Work × Summary) => middle.1.catalog = before.1.catalog)
    rfl (fun _ _ _ _ _ hdone hround => ?_) h
  obtain ⟨-, rfl⟩ | ⟨r, again, -, hinstall⟩ := recompile_eq_ok hround
  · exact hdone
  · obtain ⟨plan, removed, -, -, hw'⟩ := installRule_eq_ok hinstall
    rw [hw']
    exact hdone

/-- The store is sound, its rules can be read, and the catalog lists them. -/
structure Listed (n : Naming) (ids : Nat → Uuid) (base : Database) (clash : String → Prop)
    (w : Work) (c : Contents) : Prop where
  sound : Sound n ids base clash (fun _ => True) w c
  lists : Lists w.catalog c
  readable : ∀ r ∈ c.rules, r.body.IsReadable

lemma Listed.steps (h : Listed s.naming s.ids base clash w c) (hnow : s.now.IsRegular)
    (hcall : call.IsDefinition) (hids : Set.InjOn s.ids (Set.Iio w'.issued))
    (hsteps : call.steps s w = .ok (w', ())) :
    ∃ c', Listed s.naming s.ids base clash w' c' := by
  cases call with
  | defineClaim k =>
    obtain ⟨_, hsteps⟩ := settled_eq_ok hsteps
    obtain ⟨record, c', -, hrules, -, hsound⟩ := h.sound.defineClaim hnow hids hsteps
    obtain ⟨_, _, _, _, _, _, _, -, -, -, -, -, hrecompile⟩ := defineClaim_eq_ok hsteps
    have hcatalog : w'.catalog.rules = w.catalog.rules := by
      rw [recompileAll_catalog hrecompile]; rfl
    exact ⟨c', hsound, ⟨hcatalog ▸ h.lists.ordered, hcatalog ▸ hrules ▸ h.lists.rules⟩,
      hrules ▸ h.readable⟩
  | defineRule r =>
    obtain ⟨_, hsteps⟩ := settled_eq_ok hsteps
    obtain ⟨record, c₁, rfl, hrules, -, hsound, -⟩ := h.sound.defineRule hnow hids hsteps
    obtain ⟨_, _, _, _, _, _, -, -, -, -, -, hcatalog, -⟩ := defineRule_eq_ok hsteps
    have hmem : ∀ b, b ∈ (c₁.saveRule record).rules ↔
        b = record ∨ b ∈ c.rules ∧ b.body.key ≠ record.body.key := fun b => by
      rw [Contents.saveRule, List.mem_cons, List.mem_filter, hrules, decide_eq_true_iff]
    refine ⟨_, hsound, hcatalog ▸ h.lists.insertRule rfl hmem, fun b hb => ?_⟩
    obtain rfl | ⟨hb, -⟩ := (hmem b).mp hb
    · exact hcall
    · exact h.readable b hb
  | dropRule _ | dropRules _ | dropClaim _ | rebuild | applyDocument _ => exact absurd hcall id

end

lemma Listed.load (h : Listed n ids base clash w c) :
    ∃ catalog, loadCatalog n w.db = .ok catalog ∧ w.catalog.Alike catalog ∧
      Listed n ids base clash { w with catalog := catalog } c := by
  obtain ⟨catalog, hload⟩ := loadCatalog_isOk (n := n) h.sound.defined.stored h.readable
  have hlists := lists_of_loadCatalog h.sound.defined.stored hload
  have hsound := h.sound.reload hload
  exact ⟨catalog, hload, catalog_alike h.sound.defined.catalog hsound.defined.catalog h.lists
    hlists, hsound, hlists, h.readable⟩

/-! ### Calls in step -/

/-- A call as a whole: the state after it, or why it failed. -/
def Call.attempt (s : Setting) (x : State) (call : Call) : Result State := do
  let (db, issued, _) ← transaction s.naming false x.db x.issued (call.steps s)
  pure ⟨db, issued, call.policy x.policy⟩

/-- Calls one after the other, each at a time of its own, up to the first that fails. -/
def attemptAll (n : Naming) (ids : Nat → Uuid) (x : State) (calls : List (Instant × Call)) :
    Result State :=
  calls.foldlM (fun x call => call.2.attempt ⟨n, ids, call.1⟩ x) x

section

variable {s s' : Setting} {call : Call}

lemma attempt_eq : call.attempt s x = (do
    let catalog ← loadCatalog s.naming x.db
    let (w, _) ← call.steps s ⟨x.db, catalog, x.issued⟩
    pure ⟨w.db, w.issued, call.policy x.policy⟩) := by
  simp only [Call.attempt, transaction, Bool.false_eq_true, if_false, bind_assoc, pure_bind]

lemma perform_of_attempt_error {e : AdminError} (h : call.attempt s x = .error e) :
    call.perform s false x = x := by
  unfold Call.perform
  unfold Call.attempt at h
  split
  next heq =>
    rw [heq] at h
    cases h
  next => rfl

/-- The work within a call and the state after calls, at the same point of a document. -/
structure Follows (n : Naming) (ids : Nat → Uuid) (base : Database) (clash : String → Prop)
    (w : Work) (x : State) : Prop where
  db : Store.Alike w.db x.db
  issued : x.issued = w.issued
  listed : ∃ catalog c, w.catalog.Alike catalog ∧
    Listed n ids base clash ⟨x.db, catalog, x.issued⟩ c

/-- One part: the step within a call and the call of its own. -/
lemma Follows.attempt (hs : s.Alike s') (h : Follows s'.naming s'.ids base clash w x)
    (hcall : call.IsDefinition) (hids : Set.InjOn s'.ids (Set.Iio (x.issued + 1))) :
    InStep (fun y z => Follows s'.naming s'.ids base clash y.1 z ∧ z.issued ≤ x.issued + 1)
      (call.steps s w) (call.attempt s' x) := by
  obtain ⟨catalog, c, hcatalog, hlisted⟩ := h.listed
  obtain ⟨loaded, hload, hloaded, hlisted⟩ := hlisted.load
  have hwork : w.Alike ⟨x.db, loaded, x.issued⟩ := ⟨h.db, hcatalog.trans hloaded, h.issued⟩
  rw [attempt_eq, hload, ok_bind]
  have hsteps := steps_inStep hs hwork hcall
  generalize call.steps s w = within at hsteps ⊢
  generalize hdone : call.steps s' ⟨x.db, loaded, x.issued⟩ = alone at hsteps ⊢
  cases hsteps with
  | error e => exact .error e
  | @ok y z hyz =>
    have hle := steps_issued_le hcall hdone
    obtain ⟨c', hlisted⟩ := hlisted.steps hs.regular' hcall
      (hids.mono (Set.Iio_subset_Iio hle)) hdone
    exact .ok ⟨⟨hyz.db, hyz.issued, z.1.catalog, c', hyz.catalog, hlisted⟩, hle⟩

/-- All parts, by induction on the calls that are left. -/
lemma Follows.attemptAll {calls : List (Instant × Call)}
    (h : Follows s.naming s.ids base clash w x) (hnow : s.now.IsRegular)
    (hcalls : ∀ call ∈ calls, call.1.IsRegular ∧ call.2.IsDefinition)
    (hids : Set.InjOn s.ids (Set.Iio (x.issued + calls.length))) :
    InStep (Follows s.naming s.ids base clash)
      ((calls.map Prod.snd).foldlM (fun w call => (call.steps s w).map Prod.fst) w)
      (Admin.attemptAll s.naming s.ids x calls) := by
  induction calls generalizing w x with
  | nil => exact .ok h
  | cons call calls ih =>
    obtain ⟨⟨hregular, hcall⟩, hrest⟩ := List.forall_mem_cons.mp hcalls
    rw [List.length_cons] at hids
    have hs : s.Alike ⟨s.naming, s.ids, call.1⟩ := ⟨rfl, rfl, hnow, hregular⟩
    have hfirst : InStep
        (fun y z => Follows s.naming s.ids base clash y z ∧ z.issued ≤ x.issued + 1)
        ((call.2.steps s w).map Prod.fst) (call.2.attempt ⟨s.naming, s.ids, call.1⟩ x) :=
      (h.attempt hs hcall (hids.mono (Set.Iio_subset_Iio (by omega)))).map_left
    rw [List.map_cons, List.foldlM_cons, Admin.attemptAll, List.foldlM_cons]
    refine hfirst.bind fun y z hyz => ih hyz.1 hrest ?_
    have hle := hyz.2
    exact hids.mono (Set.Iio_subset_Iio (by omega))

end

/-! ### A document as its parts -/

lemma map_fst_settled {α : Type} (r : Result (Work × α)) :
    (settled r).map Prod.fst = r.map Prod.fst := by
  cases r <;> rfl

lemma map_fst_summarize {α : Type} (step : Work → α → Result (Work × Summary)) (w : Work)
    (items : List α) :
    (summarize step w items).map Prod.fst =
      items.foldlM (fun w a => (step w a).map Prod.fst) w := by
  have hfold : ∀ summaries, (items.foldlM (fun (acc : Work × List Summary) a =>
      step acc.1 a >>= fun x => pure (x.1, acc.2 ++ [x.2])) (w, summaries)).map Prod.fst =
        items.foldlM (fun w a => (step w a).map Prod.fst) w := by
    induction items generalizing w with
    | nil => exact fun _ => rfl
    | cons a items ih =>
      intro summaries
      rw [List.foldlM_cons, List.foldlM_cons]
      cases step w a with
      | error e => rfl
      | ok x => exact ih x.1 _
  exact hfold []

/-- Applying a document is defining its parts with one catalog. -/
lemma map_fst_applyDocument (s : Setting) (w : Work) (d : Document) :
    (Admin.applyDocument s w d).map Prod.fst =
      d.parts.foldlM (fun w call => (call.steps s w).map Prod.fst) w := by
  have hclaims := map_fst_summarize (defineClaim s) w d.claims
  simp only [Document.parts, List.foldlM_append, List.foldlM_map, Call.steps, map_fst_settled]
  rw [← hclaims, Admin.applyDocument]
  cases summarize (defineClaim s) w d.claims with
  | error e => rfl
  | ok x =>
    have hrules := map_fst_summarize (defineRule s) x.1 d.orderedRules
    change _ = d.orderedRules.foldlM (fun w r => (defineRule s w r).map Prod.fst) x.1
    rw [← hrules]
    change (summarize (defineRule s) x.1 d.orderedRules >>= _).map Prod.fst = _
    cases summarize (defineRule s) x.1 d.orderedRules <;> rfl

lemma policy_parts (d : Document) (p : Policy) :
    d.parts.foldl Call.policy p = (Call.applyDocument d).policy p := by
  rw [Document.parts, List.foldl_append, List.foldl_map, List.foldl_map]
  rfl

lemma attemptAll_policy {calls : List (Instant × Call)}
    (h : attemptAll n ids x calls = .ok y) :
    y.policy = (calls.map Prod.snd).foldl Call.policy x.policy := by
  refine foldlM_induction (fun done (z : State) =>
    z.policy = (done.map Prod.snd).foldl Call.policy x.policy) rfl
    (fun done call y z _ hy hcall => ?_) h
  obtain ⟨_, -, hcall⟩ := bind_eq_ok.mp hcall
  cases hcall
  rw [List.map_append, List.foldl_append, ← hy]
  rfl

/-! ### A document or its parts -/

/-- The same identifiers, definitions, registry, tables and views, but for stamps. -/
structure State.Same (x y : State) : Prop where
  issued : y.issued = x.issued
  policy : y.policy = x.policy
  schema : y.db.schema = x.db.schema
  rows : ∀ name t, x.db.table? name = some t → t.name ∉ tableNames → y.db.table? name = some t
  claims : ∃ ks ks', Store.claims x.db = .ok ks ∧ Store.claims y.db = .ok ks' ∧
    ks.map Stamped.content = ks'.map Stamped.content
  rules : ∃ rs rs', Store.rules x.db = .ok rs ∧ Store.rules y.db = .ok rs' ∧
    rs.map Stamped.content = rs'.map Stamped.content
  registry : ∃ as as', Store.artifacts x.db = .ok as ∧ Store.artifacts y.db = .ok as' ∧
    as.map ArtifactRecord.entry = as'.map ArtifactRecord.entry

lemma exists_of_inStep {ε α β : Type} {R : α → α → Prop} {x y : Except ε (List α)} {f : α → β}
    {bs : List α} (h : InStep (List.Forall₂ R) x y) (hy : y = .ok bs)
    (hf : ∀ a b, R a b → f a = f b) :
    ∃ as bs, x = .ok as ∧ y = .ok bs ∧ as.map f = bs.map f := by
  subst hy
  cases h with
  | ok h =>
    refine ⟨_, _, rfl, rfl, ?_⟩
    rw [← List.forall₂_eq_eq_eq, List.forall₂_map_left_iff, List.forall₂_map_right_iff]
    exact h.imp hf

/-- What is the same at the end of a document and of the calls. -/
lemma Follows.same {p : Policy} (h : Follows n ids base clash w x) (hpolicy : x.policy = p) :
    State.Same ⟨w.db, w.issued, p⟩ x := by
  obtain ⟨catalog, c, -, hlisted⟩ := h.listed
  have hc : Contains x.db c := hlisted.sound.defined.stored
  obtain ⟨ks, hks, -⟩ := hc.claims_isOk
  obtain ⟨rs, hrs⟩ := hc.rules_isOk hlisted.readable
  obtain ⟨as, has, -⟩ := hc.artifacts_isOk
  refine ⟨h.issued, hpolicy, h.db.schema, h.db.others, exists_of_inStep h.db.listClaims hks ?_,
    exists_of_inStep h.db.listRules hrs ?_, exists_of_inStep h.db.listArtifacts has ?_⟩
  · intro a b hab
    rw [Stamped.content, Stamped.content, hab.id_eq, hab.body_eq]
  · intro a b hab
    rw [Stamped.content, Stamped.content, hab.id_eq, hab.body_eq]
  · rintro a b ⟨⟨_, rfl⟩, -⟩
    rfl

lemma isDefinition_of_mem_parts {d : Document} {call : Call} (hd : ∀ r ∈ d.rules, r.IsReadable)
    (h : call ∈ d.parts) : call.IsDefinition := by
  rw [Document.parts, List.mem_append, List.mem_map, List.mem_map] at h
  obtain ⟨k, -, rfl⟩ | ⟨r, hr, rfl⟩ := h
  · trivial
  · rw [Document.orderedRules, List.mem_append, List.mem_filter, List.mem_filter] at hr
    exact hd r (hr.elim And.left And.left)

/-- A document is applied with the outcome of the calls that define its parts one by one: both
succeed, and then end with the same definitions, registry and views, or both fail with the same
error, and then applying the document has changed nothing. -/
theorem applyDocument_inStep {d : Document} {now : Instant} {calls : List (Instant × Call)}
    (hu : user.IsUnmanaged) (h : Reached n ids user past x)
    (hd : ∀ r ∈ d.rules, r.IsReadable) (hparts : calls.map Prod.snd = d.parts)
    (hload : d.parts ≠ [] ∨ (loadCatalog n x.db).isOk = true)
    (hids : Set.InjOn ids (Set.Iio (x.issued + d.parts.length)))
    (hnow : now.IsRegular) (htimes : ∀ call ∈ calls, call.1.IsRegular) :
    InStep State.Same ((Call.applyDocument d).attempt ⟨n, ids, now⟩ x)
        (attemptAll n ids x calls) ∧
      ∀ e, (Call.applyDocument d).attempt ⟨n, ids, now⟩ x = .error e →
        (Call.applyDocument d).perform ⟨n, ids, now⟩ false x = x := by
  refine ⟨?_, fun e => perform_of_attempt_error⟩
  have hlength : calls.length = d.parts.length := by rw [← hparts, List.length_map]
  have hcalls : ∀ call ∈ calls, call.1.IsRegular ∧ call.2.IsDefinition := fun call hcall =>
    ⟨htimes call hcall,
      isDefinition_of_mem_parts hd (hparts ▸ List.mem_map_of_mem hcall)⟩
  rw [attempt_eq]
  cases hcatalog : loadCatalog n x.db with
  | error e =>
    -- The first call fails as well.
    rw [hcatalog] at hload
    cases calls with
    | nil => exact absurd hparts.symm (hload.resolve_right Bool.false_ne_true)
    | cons call calls =>
      rw [attemptAll, List.foldlM_cons, attempt_eq, hcatalog]
      exact .error e
  | ok catalog =>
    obtain ⟨_, c, -, hsound⟩ := h.exists_contents hu
      (hids.mono (Set.Iio_subset_Iio (Nat.le_add_right _ _)))
    have hreadable := (loadCatalog_eq_ok hsound.defined.stored hcatalog).2
    have hfollows : Follows n ids user.managed (Clashed past) ⟨x.db, catalog, x.issued⟩ x :=
      ⟨hsound.defined.stored.alike hreadable, rfl, catalog, c, ⟨rfl, fun _ => rfl, rfl⟩,
        hsound.reload hcatalog, lists_of_loadCatalog hsound.defined.stored hcatalog, hreadable⟩
    have hsteps := hfollows.attemptAll (s := ⟨n, ids, now⟩) hnow hcalls (hlength ▸ hids)
    rw [hparts, ← map_fst_applyDocument] at hsteps
    change InStep State.Same
      (settled (Admin.applyDocument ⟨n, ids, now⟩ ⟨x.db, catalog, x.issued⟩ d) >>= _) _
    generalize Admin.applyDocument ⟨n, ids, now⟩ ⟨x.db, catalog, x.issued⟩ d = whole at hsteps ⊢
    generalize hall : attemptAll n ids x calls = apart at hsteps ⊢
    cases whole with
    | error e =>
      cases hsteps
      exact .error e
    | ok y =>
      cases hsteps with
      | ok hyz =>
        refine .ok (hyz.same ?_)
        rw [attemptAll_policy hall, hparts, policy_parts]

/-! ### A claim with a rule that refers to it, and a document without parts -/

def pairDocument : Document where
  claims := [{ name := "k", source := .table "t", principalColumn := "x", valueColumn := "x" }]
  rules := [⟨"t", .read, [], some (.membership "x" "k")⟩]

lemma pairDocument_isReadable : ∀ r ∈ pairDocument.rules, r.IsReadable := by
  intro r hr p hp
  obtain rfl := List.mem_singleton.mp hr
  cases hp
  exact ⟨by decide, by decide⟩

theorem applyDocument_inStep_pair : single.IsUnmanaged ∧
    Reached ⟨"tg_"⟩ Uuid.nth single [] ⟨(Admin.start false single).1, 0, {}⟩ ∧
    (∀ r ∈ pairDocument.rules, r.IsReadable) ∧ pairDocument.parts ≠ [] ∧
    Set.InjOn Uuid.nth (Set.Iio (0 + pairDocument.parts.length)) ∧
    ((Call.applyDocument pairDocument).attempt ⟨⟨"tg_"⟩, Uuid.nth, default⟩
      ⟨(Admin.start false single).1, 0, {}⟩).isOk = true ∧
    InStep State.Same
      ((Call.applyDocument pairDocument).attempt ⟨⟨"tg_"⟩, Uuid.nth, default⟩
        ⟨(Admin.start false single).1, 0, {}⟩)
      (attemptAll ⟨"tg_"⟩ Uuid.nth ⟨(Admin.start false single).1, 0, {}⟩
        (pairDocument.parts.map fun call => (default, call))) := by
  have hids : Set.InjOn Uuid.nth (Set.Iio (0 + pairDocument.parts.length)) :=
    Uuid.injOn_nth (by decide)
  refine ⟨single_isUnmanaged, .start, pairDocument_isReadable,
    by simp [Document.parts, pairDocument], hids,
    by set_option maxRecDepth 100000 in decide +kernel, ?_⟩
  exact (applyDocument_inStep single_isUnmanaged .start pairDocument_isReadable (by simp)
    (.inl (by simp [Document.parts, pairDocument])) hids (by decide) (by decide)).1

/-- A document without parts is not applied if the rules that are stored cannot be read, though no
part of it fails. -/
theorem empty_document_fails :
    Reached ⟨"tg_"⟩ Uuid.nth single [⟨(Admin.start false single).1, 0, {}⟩] nestedState ∧
      (∀ r ∈ (⟨[], []⟩ : Document).rules, r.IsReadable) ∧
      ((Call.applyDocument ⟨[], []⟩).attempt ⟨⟨"tg_"⟩, Uuid.nth, default⟩ nestedState).isOk =
        false ∧
      (⟨[], []⟩ : Document).parts = [] ∧
      attemptAll ⟨"tg_"⟩ Uuid.nth nestedState [] = .ok nestedState := by
  refine ⟨nestedState_reached, by simp, ?_, rfl, rfl⟩
  have hload := nestedState_unreadable.2
  rw [attempt_eq]
  cases hcatalog : loadCatalog ⟨"tg_"⟩ nestedState.db with
  | error e => rfl
  | ok catalog =>
    rw [hcatalog] at hload
    cases hload

end Admin

end RowPolicy
