import Mathlib.Tactic.Common
import RowPolicy.Number.Layout

/-!
# Numbers in text

The decimal digits of a number are digits and read back as the number.
-/

namespace RowPolicy.Number

/-! ### Digits -/

lemma digitChar_isDigit {d : Nat} (h : d < 10) : (digitChar d).isDigit = true := by
  have hall : ∀ e < 10, (digitChar e).isDigit = true := by decide
  exact hall d h

lemma digitValue_digitChar {d : Nat} (h : d < 10) : digitValue (digitChar d) = d := by
  have hall : ∀ e < 10, digitValue (digitChar e) = e := by decide
  exact hall d h

lemma digits_all (n : Nat) : (digits n).all Char.isDigit = true := by
  fun_induction digits n with
  | case1 n h => simp [digitChar_isDigit h]
  | case2 n h ih => simp [List.all_append, ih, digitChar_isDigit (Nat.mod_lt n (by omega))]

lemma digits_ne_nil (n : Nat) : digits n ≠ [] := by
  unfold digits
  split <;> simp

lemma ofDigits_digits (n : Nat) : ofDigits (digits n) = n := by
  fun_induction digits n with
  | case1 n h => simp [ofDigits, digitValue_digitChar h]
  | case2 n h ih =>
    rw [ofDigits] at ih ⊢
    rw [List.foldl_append, ih, List.foldl_cons, List.foldl_nil,
      digitValue_digitChar (Nat.mod_lt n (by omega))]
    omega

lemma head?_isDigit {ds : List Char} (hne : ds ≠ []) (h : ds.all Char.isDigit = true) :
    ds.head?.any Char.isDigit = true := by
  cases ds with
  | nil => exact absurd rfl hne
  | cons d ds =>
    rw [List.all_cons, Bool.and_eq_true] at h
    exact h.1

lemma all_replicate_zero (k : Nat) : (List.replicate k '0').all Char.isDigit = true := by
  induction k with
  | zero => rfl
  | succ k ih => simp [List.replicate_succ]

end RowPolicy.Number

namespace RowPolicy

/-! ### Decimals -/

namespace Decimal

def wholeDigits (d : Decimal) : List Char :=
  let ds := Number.digits d.coefficient
  if 0 ≤ d.exponent then ds ++ List.replicate d.exponent.toNat '0'
  else if d.exponent.natAbs < ds.length then ds.take (ds.length - d.exponent.natAbs)
  else ['0']

def fractionDigits (d : Decimal) : List Char :=
  let ds := Number.digits d.coefficient
  if 0 ≤ d.exponent then ['0']
  else if d.exponent.natAbs < ds.length then ds.drop (ds.length - d.exponent.natAbs)
  else List.replicate (d.exponent.natAbs - ds.length) '0' ++ ds

lemma positional_true (d : Decimal) :
    NumberLayout.positional true d = d.wholeDigits ++ '.' :: d.fractionDigits := by
  unfold NumberLayout.positional wholeDigits fractionDigits
  by_cases hwhole : 0 ≤ d.exponent
  · simp [hwhole]
  · by_cases hplaces : d.exponent.natAbs < (Number.digits d.coefficient).length
    · simp [hwhole, hplaces]
    · simp [hwhole, hplaces]

lemma positional_false (d : Decimal) :
    NumberLayout.positional false d =
      if 0 ≤ d.exponent then d.wholeDigits else d.wholeDigits ++ '.' :: d.fractionDigits := by
  unfold NumberLayout.positional wholeDigits fractionDigits
  by_cases hwhole : 0 ≤ d.exponent
  · simp [hwhole]
  · by_cases hplaces : d.exponent.natAbs < (Number.digits d.coefficient).length
    · simp [hwhole, hplaces]
    · simp [hwhole, hplaces]

lemma wholeDigits_ne_nil (d : Decimal) : d.wholeDigits ≠ [] := by
  unfold wholeDigits
  dsimp only
  split_ifs with hwhole hplaces
  · simp [Number.digits_ne_nil]
  · intro hnil
    have hlength := congrArg List.length hnil
    simp only [List.length_take, List.length_nil] at hlength
    omega
  · simp

lemma wholeDigits_all (d : Decimal) : d.wholeDigits.all Char.isDigit = true := by
  have hdigits := List.all_eq_true.mp (Number.digits_all d.coefficient)
  unfold wholeDigits
  dsimp only
  split_ifs with hwhole hplaces
  · simp only [List.all_append, Number.digits_all, Number.all_replicate_zero, Bool.and_self]
  · exact List.all_eq_true.mpr fun c hc => hdigits c (List.mem_of_mem_take hc)
  · decide

lemma fractionDigits_all (d : Decimal) : d.fractionDigits.all Char.isDigit = true := by
  have hdigits := List.all_eq_true.mp (Number.digits_all d.coefficient)
  unfold fractionDigits
  dsimp only
  split_ifs with hwhole hplaces
  · decide
  · exact List.all_eq_true.mpr fun c hc => hdigits c (List.mem_of_mem_drop hc)
  · simp only [List.all_append, Number.digits_all, Number.all_replicate_zero, Bool.and_self]

end Decimal

end RowPolicy
