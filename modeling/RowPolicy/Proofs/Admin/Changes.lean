import RowPolicy.Proofs.Admin.Registry

/-!
# Changes at one definition

A definition is stored with its artifacts in place of the one with its subject, installed again, or
taken out. Each of these keeps the registry sound.
-/

namespace RowPolicy

open Store

namespace Definition

/-- Two definitions are about the same claim, or the same operation on a table. -/
def SameSubject (x y : Definition) : Prop := x.target = y.target ∧ x.operation = y.operation

end Definition

namespace Store.Contents

variable {c : Contents} {x y : Definition}

def save (c : Contents) : Definition → Contents
  | .claim k => c.saveClaim k
  | .rule r => c.saveRule r

def drop (c : Contents) : Definition → Contents
  | .claim k => c.deleteClaim k.body.name
  | .rule r => c.deleteRule r.body.key

lemma key_eq_iff {r b : RuleRecord} :
    b.body.key = r.body.key ↔ (Definition.rule b).SameSubject (.rule r) := by
  rw [Rule.key, Rule.key, RuleKey.mk.injEq]
  exact and_congr_right fun _ => Option.some_inj.symm

lemma defines_drop : (c.drop x).Defines y ↔ c.Defines y ∧ ¬ y.SameSubject x := by
  cases x with
  | claim k =>
    cases y with
    | claim b => simp [drop, deleteClaim, Defines, Definition.SameSubject, Definition.target,
        Definition.operation]
    | rule b => simp [drop, deleteClaim, Defines, Definition.SameSubject, Definition.operation]
  | rule r =>
    cases y with
    | claim b => simp [drop, deleteRule, Defines, Definition.SameSubject, Definition.operation]
    | rule b => simp [drop, deleteRule, Defines, key_eq_iff]

lemma defines_save : (c.save x).Defines y ↔ y = x ∨ c.Defines y ∧ ¬ y.SameSubject x := by
  cases x with
  | claim k =>
    cases y with
    | claim b => simp [save, saveClaim, Defines, Definition.SameSubject, Definition.target,
        Definition.operation]
    | rule b => simp [save, saveClaim, Defines, Definition.SameSubject, Definition.operation]
  | rule r =>
    cases y with
    | claim b => simp [save, saveRule, Defines, Definition.SameSubject, Definition.operation]
    | rule b => simp [save, saveRule, Defines, key_eq_iff]

/-- The definitions with the identifier of a definition are those with its subject. -/
def Admits (c : Contents) (x : Definition) : Prop :=
  ∀ y, c.Defines y → (y.id = x.id ↔ y.SameSubject x)

end Store.Contents

namespace Admin

variable {n : Naming} {ids : Nat → Uuid} {base : Database} {clash : String → Prop}
  {fresh fresh' : Uuid → Prop} {w w' : Work} {c c' c₁ : Contents} {x : Definition}
  {xs : List Rendered} {now : Instant} {db₁ : Database}

/-- The definitions and the registry that a call works on. -/
structure Sound (n : Naming) (ids : Nat → Uuid) (base : Database) (clash : String → Prop)
    (fresh : Uuid → Prop) (w : Work) (c : Contents) : Prop where
  defined : Defined n ids base w c
  registered : Registered n clash fresh w c

lemma Sound.mono (h : Sound n ids base clash fresh w c)
    (hfresh : ∀ x, c.Defines x → fresh' x.id → fresh x.id) :
    Sound n ids base clash fresh' w c :=
  ⟨h.defined, h.registered.owned, fun x hx hx' => h.registered.served x hx (hfresh x hx hx'),
    h.registered.views⟩

/-! ### Identifiers -/

/-- A definition that is stored is redefined under its identifier. -/
lemma Defined.admits_of_stored {y : Definition} (h : Defined n ids base w c) (hy : c.Defines y)
    (hid : y.id = x.id) (hsubject : y.SameSubject x) : c.Admits x := by
  intro z hz
  constructor
  · intro hzid
    rw [h.ids_injective z y hz hy (hzid.trans hid.symm)]
    exact hsubject
  · intro hzsubject
    rw [h.eq_of_target hz hy (hzsubject.1.trans hsubject.1.symm)
      (hzsubject.2.trans hsubject.2.symm), hid]

/-- An identifier that is given out is that of no definition. -/
lemma Defined.admits_of_issued (h : Defined n ids base w c)
    (hids : Set.InjOn ids (Set.Iio (w.issued + 1))) (hid : x.id = ids w.issued)
    (hnew : ∀ y, c.Defines y → ¬ y.SameSubject x) : c.Admits x := by
  intro y hy
  refine iff_of_false (fun heq => ?_) (hnew y hy)
  obtain ⟨i, hi, hiy⟩ := h.issued y hy
  have hsame : i = w.issued := hids (Set.mem_Iio.mpr (by omega)) (Set.mem_Iio.mpr (by omega))
    (hiy.trans (heq.trans hid))
  omega

/-! ### Changes at one definition -/

/-- The artifacts of a rule are of different kinds, and only the first may be a view. -/
lemma renderRule_pairwise (n : Naming) (plan : CompiledRule) :
    (n.renderRule plan).Pairwise fun y z => y.kind ≠ z.kind ∧ z.kind.isView = false := by
  cases plan with
  | write g => exact List.pairwise_singleton _ _
  | read v a =>
    cases a with
    | error f => exact List.pairwise_singleton _ _
    | ok a => simp [Naming.renderRule, ArtifactKind.isView]

lemma mem_renders {catalog : Catalog} {y : Rendered} (h : x.Renders n catalog xs) (hy : y ∈ xs) :
    y.target = x.target ∧ y.operation = x.operation ∧ y.IsNamed n := by
  cases x with
  | claim k =>
    obtain ⟨-, rfl⟩ := h
    rw [List.mem_singleton.mp hy]
    exact ⟨rfl, rfl, n.renderClaim_isNamed k.body⟩
  | rule r =>
    obtain ⟨d, plan, hd, hplan, rfl⟩ := h
    obtain ⟨-, t, ht, -, hplan⟩ := Catalog.compileRule_eq_ok.mp hplan
    obtain ⟨htarget, hoperation, hnamed⟩ := Naming.mem_renderRule hplan hy
    have htable : t.name = d.table := Keyed.key_of_get? ht
    have hbody : d.table = r.body.table ∧ d.operation = r.body.operation := by
      obtain rfl | rfl := hd <;> exact ⟨rfl, rfl⟩
    rw [htable, hbody.1] at htarget
    rw [hbody.2] at hoperation
    exact ⟨htarget, hoperation, hnamed⟩

lemma renders_pairwise {catalog : Catalog} (h : x.Renders n catalog xs) :
    xs.Pairwise fun y z => y.kind ≠ z.kind ∧ z.kind.isView = false := by
  cases x with
  | claim k =>
    obtain ⟨-, rfl⟩ := h
    exact List.pairwise_singleton _ _
  | rule r =>
    obtain ⟨d, plan, -, -, rfl⟩ := h
    exact renderRule_pairwise n plan

/-- What is rendered for a definition is installed in place of what was. -/
lemma Sound.replace {catalog : Catalog} {removed : Nat} (h : Sound n ids base clash fresh w c)
    (hnow : now.IsRegular) (hadmits : c.Admits x) (hxs : x.Renders n catalog xs)
    (hreplace : Admin.replace w.db x.id (xs.map (ArtifactRecord.ofRendered x.id now)) =
      .ok (db₁, removed)) :
    ∃ c₁, Replaces x.id (xs.map (ArtifactRecord.ofRendered x.id now)) c c₁ w.db db₁ := by
  have hpairwise := renders_pairwise hxs
  refine replace_replaces h.defined.stored ?_ ?_ ?_ ?_ ?_ hreplace
  · exact List.forall_mem_map.mpr fun y hy => hnow
  · exact List.forall_mem_map.mpr fun y hy => (mem_renders hxs hy).2.2.created
  · rw [List.pairwise_map]
    refine hpairwise.imp fun {y z} hkinds name hname => ?_
    obtain ⟨hview, -⟩ := mem_viewNames.mp hname
    exact absurd hview (by simpa [ArtifactRecord.ofRendered] using hkinds.2)
  · rw [List.map_map, List.Nodup, List.pairwise_map]
    refine hpairwise.imp_of_mem fun {y z} hy hz hkinds heq => hkinds.1 ?_
    obtain ⟨-, -, hynamed⟩ := mem_renders hxs hy
    obtain ⟨-, -, hznamed⟩ := mem_renders hxs hz
    have heq' : y.identifier = z.identifier := heq
    rw [hynamed.identifier, hznamed.identifier] at heq'
    exact (Naming.identifierOf_injective hynamed.fits hznamed.fits heq').1
  · -- An identifier tells the subject, and a subject has one definition.
    intro b hb howner
    refine List.forall_mem_map.mpr fun y hy heq => howner ?_
    obtain ⟨hytarget, hyoperation, hynamed⟩ := mem_renders hxs hy
    have howned := h.registered.owned b hb
    obtain ⟨z, hz, hbz, hbtarget, hboperation⟩ := howned.exists_definition
    have hbidentifier : b.identifier = n.identifierOf b.target b.kind b.operation :=
      howned.named.identifier
    have heq' : b.identifier = y.identifier := heq
    rw [hbidentifier, hynamed.identifier] at heq'
    obtain ⟨-, htarget, hoperation⟩ :=
      Naming.identifierOf_injective howned.named.fits hynamed.fits heq'
    rw [hbz]
    exact (hadmits z hz).mpr ⟨hbtarget.symm.trans (htarget.trans hytarget),
      hboperation.symm.trans (hoperation.trans hyoperation)⟩

/-- After a change at one definition, what there is with its identifier is as it should be if the
rest was. -/
lemma Sound.edit {owner : Uuid} {new : List ArtifactRecord}
    (h : Sound n ids base clash fresh w c) (hreplaces : Replaces owner new c c₁ w.db db₁)
    (hstored : Contains w'.db c') (hspares : Spares db₁ w'.db)
    (hartifacts : c'.artifacts = c₁.artifacts)
    (hothers : ∀ y, y.id ≠ owner → (c'.Defines y ↔ c.Defines y)) (hissued : w.issued ≤ w'.issued)
    (hcatalog : Agrees (base.catalog n).tables w'.catalog c')
    (hunique : ∀ y z, c'.Defines y → c'.Defines z → y.id = owner → z.id = owner → y = z)
    (hnew : ∀ a ∈ new, a.owner = owner ∧ a.IsOwned n c')
    (htwin : ∀ name, c.HasTwin name → clash name ∨ c'.HasTwin name)
    (hkept : ∀ y, c.Defines y → y.id ≠ owner → fresh' y.id →
      fresh y.id ∧ ∀ ys, y.Renders n w.catalog ys → y.Renders n w'.catalog ys)
    (hserved : ∀ y, c'.Defines y → y.id = owner → (∃ i < w'.issued, ids i = owner) ∧
      y.Renders n w'.catalog (new.map ArtifactRecord.rendered)) :
    Sound n ids base clash fresh' w' c' := by
  have hedits : Edits owner new w w' c c' :=
    .of_replaces hreplaces hspares hartifacts hothers
  obtain ⟨names, halters, -⟩ := hedits.alters
  -- The changed definition is in order by assumption, the others are as before.
  have hd' : Defined n ids base w' c' := {
    stored := hstored
    tables := halters.tables.trans h.defined.tables
    closed := halters.closed h.defined.closed
    unreserved := fun v hv => (halters.created v hv).elim (h.defined.unreserved v) (.inr ·.2)
    ids_injective := fun y z hy hz hyz => by
      by_cases hyo : y.id = owner
      · exact hunique y z hy hz hyo (hyz.symm.trans hyo)
      · exact h.defined.ids_injective y z ((hothers y hyo).mp hy)
          ((hothers z (hyz ▸ hyo)).mp hz) hyz
    issued := fun y hy => by
      by_cases hyo : y.id = owner
      · rw [hyo]
        exact (hserved y hy hyo).1
      · obtain ⟨i, hi, hiy⟩ := h.defined.issued y ((hothers y hyo).mp hy)
        exact ⟨i, hi.trans_le hissued, hiy⟩
    catalog := hcatalog
    targets := fun r hr => by
      by_cases hro : r.id = owner
      · obtain ⟨d, plan, hd, hplan, -⟩ := (hserved (.rule r) hr hro).2
        obtain ⟨-, t, ht, -⟩ := Catalog.compileRule_eq_ok.mp hplan
        rw [Catalog.table?, hcatalog.tables] at ht
        obtain ⟨u, hu, hname, -⟩ := exists_table_of_catalog ht
        refine ⟨u, hu, hname.trans ?_⟩
        obtain rfl | rfl := hd <;> rfl
      · exact h.defined.targets r ((hothers (.rule r) hro).mp hr)
    full := fun name t ht hname => h.defined.full name t (halters.table?_eq ht hname) hname }
  exact ⟨hd', h.registered.edit h.defined hd' hedits hnew htwin hkept
    fun y hy hyo _ => (hserved y hy hyo).2⟩

/-- A definition that was installed and stored is up to date; the others are as before. -/
lemma Sound.settle (h : Sound n ids base clash fresh w c) (hadmits : c.Admits x)
    (hreplaces : Replaces x.id (xs.map (ArtifactRecord.ofRendered x.id now)) c c₁ w.db db₁)
    (hstored : Contains w'.db c') (hspares : Spares db₁ w'.db)
    (hartifacts : c'.artifacts = c₁.artifacts)
    (hdefines : ∀ y, c'.Defines y ↔ y = x ∨ c.Defines y ∧ y.id ≠ x.id)
    (hissued : w.issued ≤ w'.issued) (hid : ∃ i < w'.issued, ids i = x.id)
    (hcatalog : Agrees (base.catalog n).tables w'.catalog c')
    (hrenders : x.Renders n w'.catalog xs)
    (hkept : ∀ y, c.Defines y → y.id ≠ x.id → fresh' y.id →
      fresh y.id ∧ ∀ ys, y.Renders n w.catalog ys → y.Renders n w'.catalog ys) :
    Sound n ids base clash fresh' w' c' := by
  have hx : c'.Defines x := (hdefines x).mpr (.inl rfl)
  have honly : ∀ y, c'.Defines y → y.id = x.id → y = x := fun y hy hyx =>
    ((hdefines y).mp hy).resolve_right fun hc => hc.2 hyx
  have hothers : ∀ y, y.id ≠ x.id → (c'.Defines y ↔ c.Defines y) := fun y hyx => by
    rw [hdefines]
    refine ⟨fun hy => (hy.resolve_left ?_).1, fun hy => .inr ⟨hy, hyx⟩⟩
    rintro rfl
    exact hyx rfl
  refine h.edit hreplaces hstored hspares hartifacts hothers hissued hcatalog ?_ ?_ ?_ hkept ?_
  · exact fun y z hy hz hyx hzx => (honly y hy hyx).trans (honly z hz hzx).symm
  · refine List.forall_mem_map.mpr fun y hy => ⟨rfl, ?_⟩
    obtain ⟨htarget, hoperation, hnamed⟩ := mem_renders hrenders hy
    exact ⟨hnamed, rfl, x, hx, rfl, htarget, hoperation⟩
  · -- A claim that goes leaves its name to the one that takes its place.
    rintro name ⟨k, hk, hne, hsame⟩
    right
    by_cases hkx : k.id = x.id
    · obtain ⟨htarget, hoperation⟩ := (hadmits (.claim k) hk).mp hkx
      cases x with
      | claim k' =>
        have hname : k.body.name = k'.body.name := htarget
        exact ⟨k', hx, hname ▸ hne, hname ▸ hsame⟩
      | rule r => cases hoperation
    · exact ⟨k, (hothers (.claim k) hkx).mpr hk, hne, hsame⟩
  · intro y hy hyx
    rw [honly y hy hyx, List.map_map]
    exact ⟨hid, (List.map_id xs).symm ▸ hrenders⟩

lemma Sound.reinstall {removed : Nat} (h : Sound n ids base clash fresh w c)
    (hnow : now.IsRegular) (hx : c.Defines x) (hrenders : x.Renders n w.catalog xs)
    (hreplace : Admin.replace w.db x.id (xs.map (ArtifactRecord.ofRendered x.id now)) =
      .ok (w'.db, removed)) (hw' : w' = { w with db := w'.db }) :
    ∃ c', c'.rules = c.rules ∧ c'.claims = c.claims ∧
      Sound n ids base clash (fun id => fresh id ∨ id = x.id) w' c' := by
  have hadmits : c.Admits x := h.defined.admits_of_stored hx rfl ⟨rfl, rfl⟩
  obtain ⟨c₁, hreplaces⟩ := h.replace hnow hadmits hrenders hreplace
  have hcatalog : w'.catalog = w.catalog := by rw [hw']
  have hissued : w'.issued = w.issued := by rw [hw']
  refine ⟨c₁, hreplaces.rules, hreplaces.claims, ?_⟩
  refine h.settle hadmits hreplaces hreplaces.stored ⟨fun _ _ ht _ => ht, rfl⟩ rfl (fun y => ?_)
    hissued.ge ?_ ?_ ?_ ?_
  · -- Nothing is defined that was not defined before.
    rw [Contents.defines_congr hreplaces.rules hreplaces.claims]
    constructor
    · intro hy
      by_cases hyx : y.id = x.id
      · exact .inl (h.defined.ids_injective y x hy hx hyx)
      · exact .inr ⟨hy, hyx⟩
    · rintro (rfl | ⟨hy, -⟩)
      · exact hx
      · exact hy
  · rw [hissued]
    exact h.defined.issued x hx
  · rw [hcatalog]
    refine h.defined.catalog.congr (fun k => ?_) fun r hr => ?_
    · rw [hreplaces.claims]
    · rwa [hreplaces.rules] at hr
  · rwa [hcatalog]
  · intro y hy hyx hfresh
    rw [hcatalog]
    exact ⟨hfresh.resolve_right hyx, fun ys hys => hys⟩

/-- A definition that was taken out with its artifacts is gone; the others are as before. -/
lemma Sound.discard (h : Sound n ids base clash fresh w c)
    (hreplaces : Replaces x.id [] c c₁ w.db db₁) (hstored : Contains w'.db c')
    (hspares : Spares db₁ w'.db) (hartifacts : c'.artifacts = c₁.artifacts)
    (hdefines : ∀ y, c'.Defines y ↔ c.Defines y ∧ y.id ≠ x.id) (hissued : w.issued ≤ w'.issued)
    (hcatalog : Agrees (base.catalog n).tables w'.catalog c')
    (htwin : ∀ name, c.HasTwin name → clash name ∨ c'.HasTwin name)
    (hkept : ∀ y, c.Defines y → y.id ≠ x.id →
      ∀ ys, y.Renders n w.catalog ys → y.Renders n w'.catalog ys) :
    Sound n ids base clash fresh w' c' := by
  have hgone : ∀ y, c'.Defines y → y.id ≠ x.id := fun y hy => ((hdefines y).mp hy).2
  refine h.edit hreplaces hstored hspares hartifacts ?_ hissued hcatalog ?_ ?_ htwin ?_ ?_
  · exact fun y hy => (hdefines y).trans (and_iff_left hy)
  · exact fun y z hy _ hyx _ => absurd hyx (hgone y hy)
  · simp
  · exact fun y hy hyx hfresh => ⟨hfresh, hkept y hy hyx⟩
  · exact fun y hy hyx => absurd hyx (hgone y hy)

end Admin

end RowPolicy
