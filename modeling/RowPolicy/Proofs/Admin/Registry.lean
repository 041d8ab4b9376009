import RowPolicy.Proofs.Admin.Catalog
import RowPolicy.Proofs.Admin.Identifiers

/-!
# The registry

The registry holds artifacts of stored definitions and no others. A definition that is up to date
has the artifacts that compiling it yields. A change at one definition leaves the artifacts of the
others, and their views too unless claims have names that differ in case only.
-/

namespace RowPolicy

open Store

inductive Definition where
  | claim (k : ClaimRecord)
  | rule (r : RuleRecord)

namespace Definition

def id : Definition → Uuid
  | .claim k => k.id
  | .rule r => r.id

def target : Definition → String
  | .claim k => k.body.name
  | .rule r => r.body.table

def operation : Definition → Option Operation
  | .claim _ => none
  | .rule r => some r.body.operation

/-- What compiling and rendering a definition yields. A rule may be compiled as it was given or as
it is read back. -/
def Renders (n : Naming) (catalog : Catalog) : Definition → List Rendered → Prop
  | .claim k, xs => catalog.compileClaim k.body = .ok () ∧ xs = [n.renderClaim k.body]
  | .rule r, xs => ∃ d plan, (d = r.body ∨ d = r.body.reread) ∧
      catalog.compileRule d = .ok plan ∧ xs = n.renderRule plan

lemma Renders.congr {n : Naming} {catalog catalog' : Catalog} {x : Definition}
    {xs : List Rendered} (h : x.Renders n catalog xs) (htables : catalog'.tables = catalog.tables)
    (hclaims : ∀ r, x = .rule r → ∀ name, r.body.references name = true →
      catalog'.claim? name = catalog.claim? name) : x.Renders n catalog' xs := by
  cases x with
  | claim k =>
    obtain ⟨hcompile, hxs⟩ := h
    exact ⟨(Catalog.compileClaim_congr k.body htables).trans hcompile, hxs⟩
  | rule r =>
    obtain ⟨d, plan, hd, hplan, hxs⟩ := h
    refine ⟨d, plan, hd, Catalog.compileRule_congr hplan htables fun name hname => ?_, hxs⟩
    refine hclaims r rfl name ?_
    obtain rfl | rfl := hd
    · exact hname
    · rwa [Rule.references_reread] at hname

end Definition

namespace Store.Contents

def Defines (c : Contents) : Definition → Prop
  | .claim k => k ∈ c.claims
  | .rule r => r ∈ c.rules

lemma defines_congr {c c' : Contents} (hrules : c'.rules = c.rules)
    (hclaims : c'.claims = c.claims) (x : Definition) : c'.Defines x ↔ c.Defines x := by
  cases x with
  | claim k => rw [Defines, Defines, hclaims]
  | rule r => rw [Defines, Defines, hrules]

/-- There is a claim whose name differs from a given one in case only. -/
def HasTwin (c : Contents) (name : String) : Prop :=
  ∃ k ∈ c.claims, k.body.name ≠ name ∧ Text.sameName k.body.name name = true

/-- The artifacts of a definition, as they were rendered. -/
def Serves (c : Contents) (owner : Uuid) (xs : List Rendered) : Prop :=
  ∀ x, (∃ a ∈ c.artifacts, a.owner = owner ∧ a.rendered = x) ↔ x ∈ xs

/-- A definition whose artifacts were replaced has the new ones and no others. -/
lemma serves_new {c c' : Contents} {owner : Uuid} {new : List ArtifactRecord}
    (h : ∀ a, a ∈ c'.artifacts ↔ a ∈ new ∨ a ∈ c.artifacts ∧ a.owner ≠ owner)
    (hnew : ∀ a ∈ new, a.owner = owner) :
    c'.Serves owner (new.map ArtifactRecord.rendered) := by
  intro y
  rw [List.mem_map]
  constructor
  · rintro ⟨a, ha, haowner, rfl⟩
    obtain ha | ⟨-, hne⟩ := (h a).mp ha
    · exact ⟨a, ha, rfl⟩
    · exact absurd haowner hne
  · rintro ⟨a, ha, rfl⟩
    exact ⟨a, (h a).mpr (.inl ha), hnew a ha, rfl⟩

end Store.Contents

/-- An artifact is one of a stored definition and named after it. -/
structure ArtifactRecord.IsOwned (n : Naming) (c : Contents) (a : ArtifactRecord) : Prop where
  named : a.rendered.IsNamed n
  fingerprint : a.fingerprint = a.body.fingerprint
  exists_definition : ∃ x, c.Defines x ∧ a.owner = x.id ∧ a.target = x.target ∧
    a.operation = x.operation

namespace Admin

variable {n : Naming} {ids : Nat → Uuid} {base : Database} {clash : String → Prop}
  {fresh fresh' : Uuid → Prop} {w w' : Work} {c c' : Contents}

/-! ### Definitions -/

/-- The definitions that a call works on: those of the store, over tables that are fixed, each with
an identifier of its own that was given out. -/
structure Defined (n : Naming) (ids : Nat → Uuid) (base : Database) (w : Work) (c : Contents) :
    Prop where
  stored : Contains w.db c
  tables : w.db.schema.tables = base.schema.tables
  closed : ∀ v ∈ w.db.views, v.query.params = 0
  unreserved : ∀ v ∈ w.db.views, v ∈ base.views ∨ Database.isReserved v.name = false
  ids_injective : ∀ x y, c.Defines x → c.Defines y → x.id = y.id → x = y
  issued : ∀ x, c.Defines x → ∃ i < w.issued, ids i = x.id
  catalog : Agrees (base.catalog n).tables w.catalog c
  targets : ∀ r ∈ c.rules, ∃ t ∈ base.tables, t.name = r.body.table
  full : ∀ name t, w.db.table? name = some t → t.name ∉ tableNames → t.IsFull

namespace Defined

lemma distinct (h : Defined n ids base w c) : base.HasDistinctTables :=
  h.stored.distinct.congr h.tables.symm

lemma eq_of_target {x y : Definition} (h : Defined n ids base w c) (hx : c.Defines x)
    (hy : c.Defines y) (htarget : x.target = y.target) (hoperation : x.operation = y.operation) :
    x = y := by
  cases x with
  | claim k =>
    cases y with
    | claim k' => exact congrArg _ (h.stored.claims.eq_of_key hx hy htarget)
    | rule r => cases hoperation
  | rule r =>
    cases y with
    | claim k => cases hoperation
    | rule r' =>
      have hkey : r.body.key = r'.body.key := by
        rw [Rule.key, Rule.key, RuleKey.mk.injEq]
        exact ⟨htarget, Option.some.inj hoperation⟩
      exact congrArg _ (h.stored.rules.eq_of_key hx hy hkey)

/-- Views of different definitions have the same name up to case only if they are those of claims
whose names differ in case only. -/
lemma hasTwin_of_sameName {x y : Definition} {a b : ArtifactRecord} (h : Defined n ids base w c)
    (hx : c.Defines x) (hy : c.Defines y) (hne : x.id ≠ y.id) (ha : a.rendered.IsNamed n)
    (hax : a.target = x.target ∧ a.operation = x.operation) (hb : b.rendered.IsNamed n)
    (hby : b.target = y.target ∧ b.operation = y.operation) (haview : a.kind.isView = true)
    (hbview : b.kind.isView = true) (hname : Text.sameName a.identifier b.identifier = true) :
    b.kind = .claimView ∧ c.HasTwin b.target := by
  have hidentifier : a.identifier = n.identifierOf a.target a.kind a.operation := ha.identifier
  have hidentifier' : b.identifier = n.identifierOf b.target b.kind b.operation := hb.identifier
  rw [hidentifier, hidentifier'] at hname
  obtain ⟨hkind, htarget⟩ := Naming.sameName_views haview hbview hname
  have hfits : a.kind.Fits a.operation := ha.fits
  have hfits' : b.kind.Fits b.operation := hb.fits
  rw [hax.2, hkind] at hfits
  rw [hby.2] at hfits'
  rw [hax.1, hby.1] at htarget
  rw [hby.1]
  cases hbkind : b.kind with
  | claimView =>
    refine ⟨rfl, ?_⟩
    rw [hbkind] at hfits
    cases x with
    | rule r => cases hfits
    | claim k =>
      refine ⟨k, hx, fun heq => hne ?_, htarget⟩
      rw [hbkind] at hfits'
      exact congrArg Definition.id (h.eq_of_target hx hy heq (hfits.trans hfits'.symm))
  | readView =>
    -- The tables that rules are about are tables of the database.
    exfalso
    rw [hbkind] at hfits hfits'
    refine hne (congrArg Definition.id (h.eq_of_target hx hy ?_ (hfits.trans hfits'.symm)))
    cases x with
    | claim k => cases hfits
    | rule r =>
      cases y with
      | claim k => cases hfits'
      | rule r' =>
        obtain ⟨t, ht, htname⟩ := h.targets r hx
        obtain ⟨t', ht', htname'⟩ := h.targets r' hy
        change Text.sameName r.body.table r'.body.table = true at htarget
        rw [← htname, ← htname'] at htarget
        change r.body.table = r'.body.table
        rw [← htname, ← htname', h.distinct.eq_of_sameName ht ht' htarget]
  | readAccessor => rw [hbkind] at hbview; cases hbview
  | writeGuard => rw [hbkind] at hbview; cases hbview

end Defined

/-! ### Artifacts -/

/-- The registry holds artifacts of stored definitions, and those of a definition that is up to
date are what compiling it yields. The views are installed unless they are those of claims whose
names clash. -/
structure Registered (n : Naming) (clash : String → Prop) (fresh : Uuid → Prop) (w : Work)
    (c : Contents) : Prop where
  owned : ∀ a ∈ c.artifacts, a.IsOwned n c
  served : ∀ x, c.Defines x → fresh x.id → ∃ xs, x.Renders n w.catalog xs ∧ c.Serves x.id xs
  views : ∀ a ∈ c.artifacts, ∀ sql, a.body = .view sql → w.db.Installed a.identifier sql ∨
    a.kind = .claimView ∧ (clash a.target ∨ c.HasTwin a.target)

/-- A change at the definition with an identifier: its artifacts are replaced, and the other
definitions stay. -/
structure Edits (owner : Uuid) (new : List ArtifactRecord) (w w' : Work) (c c' : Contents) :
    Prop where
  defines : ∀ x, x.id ≠ owner → (c'.Defines x ↔ c.Defines x)
  artifacts : ∀ a, a ∈ c'.artifacts ↔ a ∈ new ∨ a ∈ c.artifacts ∧ a.owner ≠ owner
  alters : ∃ names, Database.Alters names w.db w'.db ∧ ∀ name ∈ names,
    (∃ a ∈ c.artifacts, a.owner = owner ∧ name ∈ a.viewNames) ∨ ∃ a ∈ new, name ∈ a.viewNames
  installed : ∀ a ∈ new, ∀ sql, a.body = .view sql → w'.db.Installed a.identifier sql

/-- Artifacts are replaced, and then the store is written without a change of the artifacts. -/
lemma Edits.of_replaces {owner : Uuid} {new : List ArtifactRecord} {c₁ : Contents}
    {db₁ : Database} (h : Replaces owner new c c₁ w.db db₁) (hspares : Spares db₁ w'.db)
    (hartifacts : c'.artifacts = c₁.artifacts)
    (hdefines : ∀ x, x.id ≠ owner → (c'.Defines x ↔ c.Defines x)) :
    Edits owner new w w' c c' where
  defines := hdefines
  artifacts a := by rw [hartifacts, h.artifacts]
  alters := by
    obtain ⟨names, halters, hnames⟩ := h.alters
    have halters' : Database.Alters [] db₁ w'.db := .of_spares hspares
    exact ⟨names, (halters.trans halters').mono (by simp), hnames⟩
  installed a ha sql hsql :=
    (h.installed a ha sql hsql).alters (Database.Alters.of_spares hspares : Database.Alters [] _ _)
      (by simp)

lemma mem_viewNames {a : ArtifactRecord} {name : String} :
    name ∈ a.viewNames ↔ a.kind.isView = true ∧ name = a.identifier := by
  unfold ArtifactRecord.viewNames
  split <;> simp [*]

section

variable {owner : Uuid} {new : List ArtifactRecord}

/-- The views of other definitions stay installed, unless names of claims clash. -/
lemma Edits.views (h : Edits owner new w w' c c') (hd : Defined n ids base w c)
    (hd' : Defined n ids base w' c') (howned : ∀ a ∈ c.artifacts, a.IsOwned n c)
    (hnew : ∀ a ∈ new, a.owner = owner ∧ a.IsOwned n c')
    {b : ArtifactRecord} {sql : String} (hb : b ∈ c.artifacts) (hne : b.owner ≠ owner)
    (hsql : b.body = .view sql) (hinstalled : w.db.Installed b.identifier sql) :
    w'.db.Installed b.identifier sql ∨
      b.kind = .claimView ∧ (c.HasTwin b.target ∨ c'.HasTwin b.target) := by
  obtain ⟨names, halters, hnames⟩ := h.alters
  obtain ⟨y, hy, hby, hbtarget⟩ := (howned b hb).exists_definition
  have hview : b.kind.isView = true := ((howned b hb).named.created sql hsql).1
  have hne' : owner ≠ y.id := fun heq => hne (hby.trans heq.symm)
  by_cases hclash : ∀ name ∈ names, Text.sameName name b.identifier = false
  · exact .inl (hinstalled.alters halters hclash)
  · right
    push Not at hclash
    obtain ⟨name, hname, hsame⟩ := hclash
    rw [ne_eq, Bool.not_eq_false] at hsame
    obtain ⟨a, ha, haowner, hmem⟩ | ⟨a, ha, hmem⟩ := hnames name hname
    · -- The name is that of a view that was dropped: the twin was there before.
      obtain ⟨haview, rfl⟩ := mem_viewNames.mp hmem
      obtain ⟨x, hx, hax, hatarget⟩ := (howned a ha).exists_definition
      have hids : x.id ≠ y.id := fun heq => hne' (haowner.symm.trans (hax.trans heq))
      obtain ⟨hkind, htwin⟩ := hd.hasTwin_of_sameName hx hy hids (howned a ha).named hatarget
        (howned b hb).named hbtarget haview hview hsame
      exact ⟨hkind, .inl htwin⟩
    · obtain ⟨haview, rfl⟩ := mem_viewNames.mp hmem
      obtain ⟨haowner, haowned⟩ := hnew a ha
      obtain ⟨x, hx, hax, hatarget⟩ := haowned.exists_definition
      have hids : x.id ≠ y.id := fun heq => hne' (haowner.symm.trans (hax.trans heq))
      obtain ⟨hkind, htwin⟩ := hd'.hasTwin_of_sameName hx ((h.defines y hne'.symm).mpr hy) hids
        haowned.named hatarget (howned b hb).named hbtarget haview hview hsame
      exact ⟨hkind, .inr htwin⟩

/-- The registry after a change at one definition. -/
lemma Registered.edit (h : Registered n clash fresh w c) (hd : Defined n ids base w c)
    (hd' : Defined n ids base w' c') (hedits : Edits owner new w w' c c')
    (hnew : ∀ a ∈ new, a.owner = owner ∧ a.IsOwned n c')
    (htwin : ∀ name, c.HasTwin name → clash name ∨ c'.HasTwin name)
    (hkept : ∀ x, c.Defines x → x.id ≠ owner → fresh' x.id →
      fresh x.id ∧ ∀ xs, x.Renders n w.catalog xs → x.Renders n w'.catalog xs)
    (hserved : ∀ x, c'.Defines x → x.id = owner → fresh' x.id →
      x.Renders n w'.catalog (new.map ArtifactRecord.rendered)) :
    Registered n clash fresh' w' c' where
  owned a ha := by
    obtain ha | ⟨ha, hne⟩ := (hedits.artifacts a).mp ha
    · exact (hnew a ha).2
    · -- An older artifact has another owner, and that one is still defined.
      obtain ⟨x, hx, hax, hatarget⟩ := (h.owned a ha).exists_definition
      exact ⟨(h.owned a ha).named, (h.owned a ha).fingerprint, x,
        (hedits.defines x (hax ▸ hne)).mpr hx, hax, hatarget⟩
  served x hx hfresh := by
    by_cases howner : x.id = owner
    · exact ⟨_, hserved x hx howner hfresh,
        howner ▸ Contents.serves_new hedits.artifacts fun a ha => (hnew a ha).1⟩
    · -- Any other definition has the artifacts that it had.
      have hx' := (hedits.defines x howner).mp hx
      obtain ⟨hfresh', hrenders⟩ := hkept x hx' howner hfresh
      obtain ⟨xs, hxs, hserves⟩ := h.served x hx' hfresh'
      refine ⟨xs, hrenders xs hxs, fun y => Iff.trans ?_ (hserves y)⟩
      refine exists_congr fun a => ?_
      rw [hedits.artifacts]
      constructor
      · rintro ⟨ha | ⟨ha, -⟩, haowner, hy⟩
        · exact absurd (haowner.symm.trans (hnew a ha).1) howner
        · exact ⟨ha, haowner, hy⟩
      · rintro ⟨ha, haowner, hy⟩
        exact ⟨.inr ⟨ha, haowner ▸ howner⟩, haowner, hy⟩
  views a ha sql hsql := by
    obtain ha | ⟨ha, hne⟩ := (hedits.artifacts a).mp ha
    · exact .inl (hedits.installed a ha sql hsql)
    · -- An older view stands unless one with its name was dropped or created.
      have hlift : a.kind = .claimView ∧ (clash a.target ∨ c.HasTwin a.target) →
          a.kind = .claimView ∧ (clash a.target ∨ c'.HasTwin a.target) := by
        rintro ⟨hkind, hclash | htwins⟩
        · exact ⟨hkind, .inl hclash⟩
        · exact ⟨hkind, htwin _ htwins⟩
      obtain hinstalled | hclash := h.views a ha sql hsql
      · obtain hinstalled | ⟨hkind, htwins | htwins⟩ :=
          hedits.views hd hd' h.owned hnew ha hne hsql hinstalled
        · exact .inl hinstalled
        · exact .inr (hlift ⟨hkind, .inr htwins⟩)
        · exact .inr ⟨hkind, .inr htwins⟩
      · exact .inr (hlift hclash)

end

end Admin

end RowPolicy
