import Mathlib.Tactic.Common
import RowPolicy.DefinitionError

/-!
# Outcomes

When a computation that may fail succeeds: what its parts then yield.
-/

namespace RowPolicy

variable {ε ε' α β : Type} {x : Except ε α} {a : α}

/-- A sequence succeeds if its first part does and the rest does with its result. -/
lemma bind_eq_ok {f : α → Except ε β} {b : β} :
    x >>= f = .ok b ↔ ∃ a, x = .ok a ∧ f a = .ok b := by
  cases x with
  | error e => simp [bind, Except.bind]
  | ok a => simp [bind, Except.bind]

lemma ok_bind (a : α) (f : α → Except ε β) : (.ok a : Except ε α) >>= f = f a := rfl

lemma error_bind (e : ε) (f : α → Except ε β) : (.error e : Except ε α) >>= f = .error e := rfl

lemma pure_eq_ok {b : α} : (pure a : Except ε α) = .ok b ↔ a = b := by
  simp [pure, Except.pure]

lemma exists_unit {p : Unit → Prop} : (∃ u, p u) ↔ p () :=
  ⟨fun ⟨(), h⟩ => h, fun h => ⟨(), h⟩⟩

lemma throw_ne_ok {e : ε} : (throw e : Except ε α) ≠ .ok a := by
  simp [throw, throwThe, MonadExceptOf.throw]

lemma isOk_iff : x.isOk = true ↔ ∃ a, x = .ok a := by
  cases x <;> simp [Except.isOk, Except.toBool]

lemma isOk_unit {x : Except ε Unit} : x.isOk = true ↔ x = .ok () := by
  rw [isOk_iff, exists_unit]

lemma map_eq_ok {f : α → β} {b : β} :
    x.map f = .ok b ↔ ∃ a, x = .ok a ∧ f a = b := by
  cases x <;> simp [Except.map]

lemma mapError_eq_ok {f : ε → ε'} :
    x.mapError f = .ok a ↔ x = .ok a := by
  cases x <;> simp [Except.mapError]

lemma toOption_eq_some : x.toOption = some a ↔ x = .ok a := by
  cases x <;> simp [Except.toOption]

lemma ite_error_eq_ok {p : Prop} [Decidable p] {e : ε} :
    (if p then .error e else x) = .ok a ↔ ¬p ∧ x = .ok a := by
  by_cases h : p <;> simp [h]

lemma ite_ok_eq_ok {p : Prop} [Decidable p] {e : ε} {b : α} :
    (if p then .ok a else .error e : Except ε α) = .ok b ↔ p ∧ a = b := by
  by_cases h : p <;> simp [h]

/-- What holds at the start of a loop and is kept by each round that succeeds holds at its end. -/
lemma foldlM_induction {f : β → α → Except ε β} {b b' : β} {items : List α}
    (P : List α → β → Prop) (hstart : P [] b)
    (hstep : ∀ done a b₁ b₂, a ∈ items → P done b₁ → f b₁ a = .ok b₂ → P (done ++ [a]) b₂)
    (h : items.foldlM f b = .ok b') : P items b' := by
  have hloop : ∀ (rest done : List α) (b₁ : β), done ++ rest = items → P done b₁ →
      rest.foldlM f b₁ = .ok b' → P items b' := by
    intro rest
    induction rest with
    | nil =>
      intro done b₁ hitems hdone hrest
      cases hrest
      rwa [← hitems, List.append_nil]
    | cons a rest ih =>
      intro done b₁ hitems hdone hrest
      rw [List.foldlM_cons] at hrest
      obtain ⟨b₂, hround, hrest⟩ := bind_eq_ok.mp hrest
      have hmem : a ∈ items := hitems ▸ List.mem_append_right _ List.mem_cons_self
      refine ih (done ++ [a]) b₂ ?_ (hstep done a b₁ b₂ hmem hdone hround) hrest
      rw [List.append_assoc, ← hitems]
      rfl
  exact hloop items [] b rfl hstart h

end RowPolicy
