import RowPolicy.Proofs.Admin.Progress
import RowPolicy.Proofs.Admin.Run

/-!
# Purposes of artifacts

An artifact serves one purpose: it shows the rows of a claim, shows or fetches the readable rows of
a table, or guards one operation on a table. The identifier tells the purpose, whatever the stem and
the names of claims and tables are. So an entry of the registry is only ever replaced by one with
the same purpose.
-/

namespace RowPolicy

open Store

inductive Purpose where
  | claim (name : String)
  | view (table : String)
  | accessor (table : String)
  | guard (table : String) (operation : Operation)

namespace Purpose

variable {n : Naming} {p q : Purpose}

def kind : Purpose → ArtifactKind
  | .claim _ => .claimView
  | .view _ => .readView
  | .accessor _ => .readAccessor
  | .guard _ _ => .writeGuard

def target : Purpose → String
  | .claim name => name
  | .view table => table
  | .accessor table => table
  | .guard table _ => table

def operation : Purpose → Option Operation
  | .claim _ => none
  | .view _ => some .read
  | .accessor _ => some .read
  | .guard _ operation => some operation

def identifier (n : Naming) : Purpose → String
  | .claim name => n.claimView name
  | .view table => n.readView table
  | .accessor table => n.accessor table
  | .guard table operation => n.guard table operation

lemma identifierOf_eq (n : Naming) (p : Purpose) :
    n.identifierOf p.target p.kind p.operation = p.identifier n := by
  cases p <;> rfl

/-- Only guards have operations that their kind does not tell. -/
lemma eq_of_kind (hkind : p.kind = q.kind) (htarget : p.target = q.target)
    (hoperation : p.kind = .writeGuard → p.operation.getD .create = q.operation.getD .create) :
    p = q := by
  cases p with
  | claim name => cases q <;> first | exact congrArg _ htarget | cases hkind
  | view table => cases q <;> first | exact congrArg _ htarget | cases hkind
  | accessor table => cases q <;> first | exact congrArg _ htarget | cases hkind
  | guard table operation =>
    cases q with
    | guard table' operation' =>
      cases htarget
      exact congrArg _ (hoperation rfl)
    | _ => cases hkind

/-- Artifacts for different purposes have different identifiers. -/
lemma identifier_injective (n : Naming) : Function.Injective (identifier n) := by
  intro p q h
  have hlist := congrArg String.toList h
  rw [← identifierOf_eq, ← identifierOf_eq, Naming.toList_identifierOf, Naming.toList_identifierOf,
    List.append_cancel_left_eq] at hlist
  have hkind : p.kind = q.kind :=
    Naming.tag_injective (f := id) (fun _ _ => rfl) (by simpa only [List.map_id] using hlist)
  rw [hkind, List.append_cancel_left_eq] at hlist
  obtain ⟨htarget, hoperation⟩ := Naming.ending_cancel hlist
  exact eq_of_kind hkind (String.toList_inj.mp htarget) fun hguard => hoperation (hkind ▸ hguard)

end Purpose

/-! ### Entries of the registry -/

/-- An entry of the registry serves a purpose and is named after it. -/
structure ArtifactRecord.IsFor (n : Naming) (p : Purpose) (a : ArtifactRecord) : Prop where
  identifier : a.identifier = p.identifier n
  kind : a.kind = p.kind
  target : a.target = p.target
  operation : a.operation = p.operation

/-- An entry that a claim or a compiled rule is registered with. -/
inductive Naming.Registers (n : Naming) : ArtifactRecord → Prop
  | claim (owner : Uuid) {now : Instant} (hnow : now.IsRegular) (k : Claim) :
      n.Registers (.ofRendered owner now (n.renderClaim k))
  | rule (owner : Uuid) {now : Instant} (hnow : now.IsRegular) (plan : CompiledRule) {x : Rendered}
      (hx : x ∈ n.renderRule plan) : n.Registers (.ofRendered owner now x)

variable {n : Naming} {a b : ArtifactRecord}

lemma Naming.Registers.isRegular (h : n.Registers a) : a.createdAt.IsRegular := by
  cases h with
  | claim _ hnow _ => exact hnow
  | rule _ hnow _ _ => exact hnow

lemma Naming.Registers.exists_purpose (h : n.Registers a) : ∃ p, a.IsFor n p := by
  cases h with
  | claim owner _ k => exact ⟨.claim k.name, rfl, rfl, rfl, rfl⟩
  | rule owner _ plan hx =>
    cases plan with
    | write g =>
      rw [renderRule, List.mem_singleton] at hx
      subst hx
      exact ⟨.guard g.table g.operation, rfl, rfl, rfl, rfl⟩
    | read view accessor =>
      rw [renderRule.eq_def, List.mem_cons] at hx
      obtain rfl | hx := hx
      · exact ⟨.view view.table, rfl, rfl, rfl, rfl⟩
      · cases accessor with
        | error f => cases hx
        | ok accessor =>
          rw [List.mem_singleton] at hx
          subst hx
          exact ⟨.accessor accessor.table, rfl, rfl, rfl, rfl⟩

namespace ArtifactRecord

lemma exists_purpose (h : a.rendered.IsNamed n) : ∃ p, a.IsFor n p := by
  obtain ⟨identifier, owner, kind, target, op, body, fingerprint, createdAt⟩ := a
  obtain ⟨hidentifier, hfits, -, -⟩ := h
  simp only [rendered] at hidentifier hfits
  subst hidentifier
  cases kind with
  | claimView => exact ⟨.claim target, rfl, rfl, rfl, hfits⟩
  | readView => exact ⟨.view target, rfl, rfl, rfl, hfits⟩
  | readAccessor => exact ⟨.accessor target, rfl, rfl, rfl, hfits⟩
  | writeGuard =>
    obtain ⟨operation, rfl, -⟩ := hfits
    exact ⟨.guard target operation, rfl, rfl, rfl, rfl⟩

def Matches (a b : ArtifactRecord) : Prop :=
  a.kind = b.kind ∧ a.target = b.target ∧ a.operation = b.operation

instance (a b : ArtifactRecord) : Decidable (a.Matches b) :=
  inferInstanceAs (Decidable (_ ∧ _ ∧ _))

lemma IsFor.identifier_eq_iff {p q : Purpose} (ha : a.IsFor n p) (hb : b.IsFor n q) :
    a.identifier = b.identifier ↔ a.Matches b := by
  rw [ha.identifier, hb.identifier, (Purpose.identifier_injective n).eq_iff, Matches, ha.kind,
    hb.kind, ha.target, hb.target, ha.operation, hb.operation]
  constructor
  · rintro rfl
    exact ⟨rfl, rfl, rfl⟩
  · rintro ⟨hkind, htarget, hoperation⟩
    exact Purpose.eq_of_kind hkind htarget fun _ => by rw [hoperation]

end ArtifactRecord

/-! ### Saving entries -/

/-- A database with a registry whose entries serve purposes. -/
structure Purposeful (n : Naming) (db : Database) (c : Contents) : Prop where
  stored : Contains db c
  entries : ∀ a ∈ c.artifacts, ∃ p, a.IsFor n p

namespace Purposeful

variable {db : Database} {c : Contents}

lemma saveArtifact (h : Purposeful n db c) (ha : n.Registers a) :
    ∃ db' c', Store.saveArtifact db a = .ok db' ∧ Purposeful n db' c' ∧
      c'.artifacts = a :: c.artifacts.filter fun b => ¬b.Matches a := by
  obtain ⟨db', hsave⟩ := h.stored.saveArtifact_isOk a
  obtain ⟨hstored, -⟩ := h.stored.saveArtifact ha.isRegular hsave
  obtain ⟨p, hp⟩ := ha.exists_purpose
  refine ⟨db', _, hsave, ⟨hstored, ?_⟩, ?_⟩
  · exact List.forall_mem_cons.mpr ⟨⟨p, hp⟩, fun b hb => h.entries b (List.mem_filter.mp hb).1⟩
  · refine congrArg (a :: ·) (List.filter_congr fun b hb => ?_)
    obtain ⟨q, hq⟩ := h.entries b hb
    rw [decide_eq_decide]
    exact not_congr (hq.identifier_eq_iff hp)

lemma saveArtifacts (h : Purposeful n db c) {entries : List ArtifactRecord}
    (hentries : ∀ a ∈ entries, n.Registers a) :
    ∃ db' c', entries.foldlM Store.saveArtifact db = .ok db' ∧ Purposeful n db' c' := by
  induction entries generalizing db c with
  | nil => exact ⟨db, c, rfl, h⟩
  | cons a entries ih =>
    rw [List.forall_mem_cons] at hentries
    obtain ⟨db₁, c₁, hsave, h₁, -⟩ := h.saveArtifact hentries.1
    obtain ⟨db', c', hrest, h'⟩ := ih h₁ hentries.2
    exact ⟨db', c', by rw [List.foldlM_cons, hsave, ok_bind, hrest], h'⟩

end Purposeful

namespace Admin

variable {ids : Nat → Uuid} {user : Database} {past : List State} {x : State}

lemma Reached.purposeful (h : Reached n ids user past x) (hu : user.IsUnmanaged)
    (hids : Set.InjOn ids (Set.Iio x.issued)) : ∃ c, Purposeful n x.db c := by
  obtain ⟨catalog, c, -, hsound⟩ := h.exists_contents hu hids
  exact ⟨c, hsound.defined.stored, fun a ha =>
    ArtifactRecord.exists_purpose (hsound.registered.owned a ha).named⟩

end Admin

/-- Identifiers are equal as bytes for the same purpose only. In a registry that a run has reached,
and after any further entries, an entry can be added, and it takes the place of the one with its
kind, its target and its operation and of no other. -/
theorem Naming.identifiers_unique (n : Naming) :
    (∀ p q : Purpose, (p.identifier n).toUTF8 = (q.identifier n).toUTF8 ↔ p = q) ∧
    ∀ (ids : Nat → Uuid) (user : Database) (past : List Admin.State) (x : Admin.State),
      user.IsUnmanaged → Admin.Reached n ids user past x → Set.InjOn ids (Set.Iio x.issued) →
      ∀ entries : List ArtifactRecord, (∀ a ∈ entries, n.Registers a) →
      ∃ db as, entries.foldlM Store.saveArtifact x.db = .ok db ∧ Store.artifacts db = .ok as ∧
        ∀ a, n.Registers a → ∃ db' as', Store.saveArtifact db a = .ok db' ∧
          Store.artifacts db' = .ok as' ∧ as'.Perm (a :: as.filter fun b => ¬b.Matches a) := by
  refine ⟨fun p q => ?_, fun ids user past x hu hx hids entries hentries => ?_⟩
  · exact String.toByteArray_inj.trans (Purpose.identifier_injective n).eq_iff
  · obtain ⟨c₀, h₀⟩ := hx.purposeful hu hids
    obtain ⟨db, c, hsaved, h⟩ := h₀.saveArtifacts hentries
    obtain ⟨as, has, hperm⟩ := h.stored.artifacts_isOk
    refine ⟨db, as, hsaved, has, fun a ha => ?_⟩
    obtain ⟨db', c', hsave, h', hartifacts⟩ := h.saveArtifact ha
    obtain ⟨as', has', hperm'⟩ := h'.stored.artifacts_isOk
    rw [hartifacts] at hperm'
    exact ⟨db', as', hsave, has', hperm'.trans ((hperm.symm.filter _).cons a)⟩

/-- The guards of creates on a table and on one that is named after the first and the operation. -/
theorem Naming.identifiers_unique_guards :
    let n : Naming := ⟨""⟩
    let x : Admin.State := ⟨(Admin.start false {}).1, 0, {}⟩
    let rendered (table : String) : Rendered :=
      ⟨n.guard table .create, .writeGuard, table, some .create, n.renderGuard (.create table [] [])⟩
    let a := ArtifactRecord.ofRendered (Uuid.nth 0) ⟨0, 0⟩ (rendered "a")
    let b := ArtifactRecord.ofRendered (Uuid.nth 1) ⟨0, 0⟩ (rendered "a_create")
    a.identifier = "guard_a_create" ∧ b.identifier = "guard_a_create_create" ∧
    ({} : Database).IsUnmanaged ∧ Admin.Reached n Uuid.nth {} [] x ∧
    Set.InjOn Uuid.nth (Set.Iio x.issued) ∧ (∀ c ∈ [a], n.Registers c) ∧ n.Registers b ∧
    ∃ db as, [a].foldlM Store.saveArtifact x.db = .ok db ∧ Store.artifacts db = .ok as ∧
      ∃ db' as', Store.saveArtifact db b = .ok db' ∧ Store.artifacts db' = .ok as' ∧
        as'.Perm (b :: as.filter fun c => ¬c.Matches b) := by
  intro n x rendered a b
  have hregisters : ∀ owner table,
      n.Registers (.ofRendered owner ⟨0, 0⟩ (rendered table)) := fun owner table =>
    .rule owner (by decide) (.write (.create table [] [])) List.mem_cons_self
  have hu : ({} : Database).IsUnmanaged := by decide
  have hids : Set.InjOn Uuid.nth (Set.Iio x.issued) := Uuid.injOn_nth (Nat.zero_le _)
  have ha : ∀ c ∈ [a], n.Registers c := List.forall_mem_singleton.mpr (hregisters _ _)
  obtain ⟨db, as, hdb, has, hsave⟩ :=
    (identifiers_unique n).2 Uuid.nth {} [] x hu .start hids [a] ha
  exact ⟨by decide, by decide, hu, .start, hids, ha, hregisters _ _, db, as, hdb, has,
    hsave b (hregisters _ _)⟩

end RowPolicy
