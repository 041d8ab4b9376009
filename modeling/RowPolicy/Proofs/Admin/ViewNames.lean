import RowPolicy.Proofs.Admin.Run

/-!
# Views of the registry

The views in the database are those of the registry. The store tells claims apart by their exact
names, but the database looks up views without regard to case: claims whose names differ in case
only have one view between them.
-/

namespace RowPolicy.Admin

open Store

variable {n : Naming} {ids : Nat → Uuid} {user : Database} {past : List State} {x : State}

/-- The view of a registered artifact is in the database, created by the text of the artifact,
unless it is that of a claim and there was a claim whose name differs from it in case only. -/
theorem installed_of_reached (hu : user.IsUnmanaged) (h : Reached n ids user past x)
    (hids : Set.InjOn ids (Set.Iio x.issued)) :
    ∃ as, Store.artifacts x.db = .ok as ∧ ∀ a ∈ as, a.kind.isView = true →
      ∃ sql, a.body = .view sql ∧ (x.db.Installed a.identifier sql ∨
        a.kind = .claimView ∧ Clashed (x :: past) a.target) := by
  obtain ⟨catalog, c, -, hsound⟩ := h.exists_contents hu hids
  obtain ⟨as, has, hperm⟩ := hsound.defined.stored.artifacts_isOk
  refine ⟨as, has, fun a ha hview => ?_⟩
  have ha' : a ∈ c.artifacts := hperm.mem_iff.mp ha
  obtain ⟨sql, hsql⟩ := (hsound.registered.owned a ha').named.isView hview
  refine ⟨sql, hsql, (hsound.registered.views a ha' sql hsql).imp_right ?_⟩
  rintro ⟨hkind, hclash | htwin⟩
  · exact ⟨hkind, hclash.mono x⟩
  · exact ⟨hkind, clashed_of_hasTwin List.mem_cons_self hsound.defined.stored htwin⟩

/-- A claim in force has its view in the registry. -/
lemma Reached.exists_claimView {k : Claim} (h : Reached n ids user past x)
    (hu : user.IsUnmanaged) (hids : Set.InjOn ids (Set.Iio x.issued))
    (hk : k ∈ x.policy.claims) :
    ∃ as, Store.artifacts x.db = .ok as ∧ ∃ a ∈ as, a.rendered = n.renderClaim k := by
  obtain ⟨catalog, c, hpolicy, hsound⟩ := h.exists_contents hu hids
  obtain ⟨as, has, hperm⟩ := hsound.defined.stored.artifacts_isOk
  rw [← hpolicy] at hk
  obtain ⟨b, hb, rfl⟩ := List.mem_map.mp hk
  obtain ⟨xs, ⟨-, rfl⟩, hserves⟩ := hsound.registered.served (.claim b) hb trivial
  obtain ⟨a, ha, -, hrendered⟩ := (hserves _).mpr (List.mem_singleton.mpr rfl)
  exact ⟨as, has, a, hperm.mem_iff.mpr ha, hrendered⟩

/-! ### Two claims with one view -/

def paired : Database :=
  { tables := [{ name := "m", columns := [{ name := "a" }, { name := "b" }] }] }

def lowerClaim : Claim := ⟨"k", .table "m", "a", "b", []⟩

/-- A claim with the same name in another case, which reads the table the other way. -/
def upperClaim : Claim := ⟨"K", .table "m", "b", "a", []⟩

def twinState : State :=
  (Call.applyDocument ⟨[lowerClaim, upperClaim], []⟩).perform ⟨⟨"tg_"⟩, Uuid.nth, default⟩ false
    ⟨(Admin.start false paired).1, 0, {}⟩

lemma paired_isUnmanaged : paired.IsUnmanaged := by decide

lemma twinState_reached : Reached ⟨"tg_"⟩ Uuid.nth paired
    [⟨(Admin.start false paired).1, 0, {}⟩] twinState :=
  .call .start (by decide) false _

lemma twinState_eval : twinState.issued = 2 ∧
    (twinState.db.view? "tg_claim_k").map View.name = some "tg_claim_K" := by
  set_option maxRecDepth 100000 in decide +kernel

lemma twinState_ids : Set.InjOn Uuid.nth (Set.Iio twinState.issued) :=
  Uuid.injOn_nth (by rw [twinState_eval.1]; omega)

lemma twinState_claims : twinState.policy.claims = [upperClaim, lowerClaim] := by
  have hpolicy : twinState.policy =
      Policy.setClaim (Policy.setClaim {} lowerClaim) upperClaim := by
    unfold twinState
    exact Call.perform_policy (by rw [← twinState, twinState_eval.1]; decide)
  rw [hpolicy]
  decide

theorem installed_of_reached_twins :
    paired.IsUnmanaged ∧
    Reached ⟨"tg_"⟩ Uuid.nth paired [⟨(Admin.start false paired).1, 0, {}⟩] twinState ∧
    Set.InjOn Uuid.nth (Set.Iio twinState.issued) ∧
    ∃ as, Store.artifacts twinState.db = .ok as ∧ ∀ a ∈ as, a.kind.isView = true →
      ∃ sql, a.body = .view sql ∧ (twinState.db.Installed a.identifier sql ∨ a.kind = .claimView ∧
        Clashed [twinState, ⟨(Admin.start false paired).1, 0, {}⟩] a.target) :=
  ⟨paired_isUnmanaged, twinState_reached, twinState_ids,
    installed_of_reached paired_isUnmanaged twinState_reached twinState_ids⟩

/-- A claim can take the view of another one: the one stays registered, but what is found under the
name of its view is the view of the other. -/
theorem claim_takes_view :
    Reached ⟨"tg_"⟩ Uuid.nth paired [⟨(Admin.start false paired).1, 0, {}⟩] twinState ∧
    ∃ as, Store.artifacts twinState.db = .ok as ∧ ∃ a ∈ as, ∃ sql, a.kind = .claimView ∧
      a.body = .view sql ∧ ¬ twinState.db.Installed a.identifier sql := by
  obtain ⟨as, has, a, ha, hrendered⟩ := twinState_reached.exists_claimView (k := lowerClaim)
    paired_isUnmanaged twinState_ids (by rw [twinState_claims]; decide)
  have hidentifier : a.identifier = "tg_claim_k" := by
    calc a.identifier = Naming.claimView ⟨"tg_"⟩ "k" := congrArg Rendered.identifier hrendered
      _ = "tg_claim_k" := by decide
  refine ⟨twinState_reached, as, has, a, ha, _, congrArg Rendered.kind hrendered,
    congrArg Rendered.body hrendered, fun hinstalled => ?_⟩
  obtain ⟨q, rest, -, hview⟩ := hinstalled.exists_view
  rw [hidentifier] at hview
  have hname : some "tg_claim_k" = some "tg_claim_K" := by rw [← twinState_eval.2, hview]; rfl
  exact absurd hname (by decide)

end RowPolicy.Admin
