import Mathlib.Algebra.Order.Field.Power
import Mathlib.Data.Rat.Cast.Order
import Mathlib.Tactic.FieldSimp
import Mathlib.Tactic.Linarith
import Mathlib.Tactic.NormNum
import Mathlib.Tactic.Positivity
import Mathlib.Tactic.Ring
import RowPolicy.Number.Shortest

/-!
# Rounding

A ratio in the interval of the reals that round to a number is rounded to that number, and so is a
decimal.
-/

namespace RowPolicy.Binary64

/-! ### Fields -/

lemma fractionField_lt (x : Binary64) : x.fractionField < 2 ^ 52 :=
  Nat.mod_lt _ (Nat.two_pow_pos 52)

lemma exponentField_lt (x : Binary64) : x.exponentField < 2048 := Nat.mod_lt _ (by decide)

lemma ofFields_fields (x : Binary64) :
    ofFields x.isNegative x.exponentField x.fractionField = x := by
  obtain ⟨bits⟩ := x
  have hlt : bits.toNat < 2 ^ 64 := bits.toNat_lt
  have hvalue : (if (Binary64.mk bits).isNegative then Nat.pow 2 63 else 0)
      + (Binary64.mk bits).exponentField * Nat.pow 2 52 + (Binary64.mk bits).fractionField
      = bits.toNat := by
    unfold isNegative exponentField fractionField
    simp only [Nat.pow_eq, decide_eq_true_eq]
    split <;> omega
  unfold ofFields
  rw [hvalue, UInt64.ofNat_toNat]

lemma significand_lt (x : Binary64) : x.significand < 2 ^ 53 := by
  have hlt := x.fractionField_lt
  unfold significand
  simp only [Nat.pow_eq]
  split <;> omega

lemma fields_cases (x : Binary64) (h : x.isFinite = true) :
    x.significand < 2 ^ 52 ∧ x.scale = -1074 ∧ x.exponentField = 0 ∧
        x.fractionField = x.significand ∨
      2 ^ 52 ≤ x.significand ∧ -1074 ≤ x.scale ∧ x.scale ≤ 971 ∧
        (x.exponentField : Int) = x.scale + 1075 ∧
        x.fractionField = x.significand - 2 ^ 52 := by
  have hfraction := x.fractionField_lt
  have hexponent := x.exponentField_lt
  have hfinite : x.exponentField ≠ 2047 := by simpa [isFinite] using h
  unfold significand scale
  simp only [Nat.pow_eq, beq_iff_eq]
  split <;> omega

/-! ### Rounding of a quotient -/

lemma zpow_natAbs (b : Nat) (q : Int) :
    (q < 0 → (b : ℚ) ^ q = ((Nat.pow b q.natAbs : Nat) : ℚ)⁻¹) ∧
      (¬ q < 0 → (b : ℚ) ^ q = (Nat.pow b q.natAbs : Nat)) := by
  constructor
  · intro hq
    obtain ⟨k, rfl⟩ : ∃ k : Nat, q = -k := ⟨q.natAbs, by omega⟩
    rw [Int.natAbs_neg, Int.natAbs_natCast, zpow_neg, zpow_natCast, Nat.pow_eq, Nat.cast_pow]
  · intro hq
    obtain ⟨k, rfl⟩ : ∃ k : Nat, q = k := ⟨q.natAbs, by omega⟩
    rw [Int.natAbs_natCast, zpow_natCast, Nat.pow_eq, Nat.cast_pow]

lemma scaled_eq (num : Nat) {den : Nat} (q : Int) (hden : 0 < den) :
    0 < (scaled num den q).2 ∧
      ((scaled num den q).1 : ℚ) / (scaled num den q).2 = num / den / 2 ^ q := by
  unfold scaled
  split
  next hq =>
    have hpow : (2 : ℚ) ^ q = _ := (zpow_natAbs 2 q).1 hq
    refine ⟨hden, ?_⟩
    rw [hpow, div_inv_eq_mul, Nat.cast_mul, mul_div_right_comm]
  next hq =>
    have hpow : (2 : ℚ) ^ q = _ := (zpow_natAbs 2 q).2 hq
    refine ⟨Nat.mul_pos hden (Nat.two_pow_pos _), ?_⟩
    rw [hpow, Nat.cast_mul, div_div]

/-- A quotient is rounded to the number that it is closest to, and to an even one if it is halfway
between two. -/
lemma roundEven_eq {n d m : Nat} (hd : 0 < d) (hlow : (m : ℚ) - 1 / 2 ≤ n / d)
    (hhigh : (n : ℚ) / d ≤ m + 1 / 2)
    (hodd : m % 2 = 1 → (m : ℚ) - 1 / 2 < n / d ∧ (n : ℚ) / d < m + 1 / 2) :
    roundEven n d = m := by
  have hd' : (0 : ℚ) < d := by exact_mod_cast hd
  rw [le_div_iff₀ hd'] at hlow
  rw [div_le_iff₀ hd'] at hhigh
  rw [lt_div_iff₀ hd', div_lt_iff₀ hd'] at hodd
  have hlow' : 2 * (m * d) ≤ 2 * n + d := by
    have : (2 * (m * d) : ℚ) ≤ 2 * n + d := by linarith
    exact_mod_cast this
  have hhigh' : 2 * n ≤ 2 * (m * d) + d := by
    have : (2 * n : ℚ) ≤ 2 * (m * d) + d := by linarith
    exact_mod_cast this
  have hodd' : m % 2 = 1 → 2 * (m * d) < 2 * n + d ∧ 2 * n < 2 * (m * d) + d := by
    intro hm
    obtain ⟨h, h'⟩ := hodd hm
    have h₁ : (2 * (m * d) : ℚ) < 2 * n + d := by linarith
    have h₂ : (2 * n : ℚ) < 2 * (m * d) + d := by linarith
    exact ⟨by exact_mod_cast h₁, by exact_mod_cast h₂⟩
  have hn := Nat.div_add_mod n d
  have hr := Nat.mod_lt n hd
  unfold roundEven
  generalize n % d = r at *
  generalize n / d = k at *
  -- The floor of the quotient is `m`, or the number below it.
  have hk : k = m ∨ k + 1 = m := by
    have h₁ : k < m + 1 := by
      by_contra hc
      have := Nat.mul_le_mul_left d (Nat.le_of_not_lt hc)
      rw [Nat.mul_add, Nat.mul_comm d m] at this
      omega
    have h₂ : m < k + 2 := by
      by_contra hc
      have := Nat.mul_le_mul_right d (Nat.le_of_not_lt hc)
      rw [Nat.add_mul, Nat.mul_comm k d] at this
      omega
    omega
  rcases hk with rfl | rfl
  · rw [Nat.mul_comm d k] at hn
    dsimp only
    split_ifs <;> omega
  · rw [Nat.add_mul, Nat.mul_comm k d] at *
    dsimp only
    split_ifs <;> omega

/-! ### The scale of a ratio -/

/-- A scale at which a positive value has at most 53 bits, and less only at the least scale. -/
structure IsScaleFor (v : ℚ) (q : Int) : Prop where
  lt : v < 2 ^ 53 * 2 ^ q
  least : -1074 ≤ q
  full : q = -1074 ∨ 2 ^ 52 * 2 ^ q ≤ v

lemma zpow_double (q : Int) : (2 : ℚ) ^ (q + 1) = 2 * 2 ^ q := by
  rw [zpow_add_one₀ (by norm_num), mul_comm]

lemma IsScaleFor.eq {v : ℚ} {q q' : Int} (h : IsScaleFor v q) (h' : IsScaleFor v q') :
    q = q' := by
  have key : ∀ {a b : Int}, IsScaleFor v a → IsScaleFor v b → ¬ a < b := by
    intro a b ha hb hlt
    have hfull : 2 ^ 52 * 2 ^ b ≤ v := hb.full.resolve_left (by have := ha.least; omega)
    have hpow : (2 : ℚ) ^ (a + 1) ≤ 2 ^ b := zpow_le_zpow_right₀ (by norm_num) (by omega)
    rw [zpow_double] at hpow
    have := ha.lt
    linarith
  exact le_antisymm (not_lt.mp (key h' h)) (not_lt.mp (key h h'))

lemma log2_bounds {n : Nat} (hn : 0 < n) :
    (2 : ℚ) ^ (Nat.log2 n : Int) ≤ n ∧ (n : ℚ) < 2 * 2 ^ (Nat.log2 n : Int) := by
  have hlow := Nat.log2_self_le hn.ne'
  have hhigh := Nat.lt_log2_self (n := n)
  rw [pow_succ, mul_comm] at hhigh
  rw [zpow_natCast]
  exact ⟨by exact_mod_cast hlow, by exact_mod_cast hhigh⟩

lemma isScaleFor_scaleFor {num den : Nat} (hnum : 0 < num) (hden : 0 < den) :
    IsScaleFor ((num : ℚ) / den) (scaleFor num den) := by
  obtain ⟨hnumLow, hnumHigh⟩ := log2_bounds hnum
  obtain ⟨hdenLow, hdenHigh⟩ := log2_bounds hden
  have hden' : (0 : ℚ) < den := by exact_mod_cast hden
  unfold scaleFor
  dsimp only
  generalize hq : ((Nat.log2 num : Int) - Nat.log2 den - 53) = q
  obtain ⟨hd, hratio⟩ := scaled_eq num q hden
  generalize scaled num den q = nd at hd hratio ⊢
  obtain ⟨n, d⟩ := nd
  dsimp only at hd hratio
  have hd' : (0 : ℚ) < d := by exact_mod_cast hd
  have hpos : (0 : ℚ) < 2 ^ q := by positivity
  -- At the first scale the value is between `2 ^ 52` and `2 ^ 54`.
  have hsplit : (2 : ℚ) ^ (Nat.log2 num : Int) = 2 ^ 53 * 2 ^ q * 2 ^ (Nat.log2 den : Int) := by
    rw [← zpow_natCast, ← zpow_add₀ (by norm_num), ← zpow_add₀ (by norm_num)]
    congr 1
    push_cast
    omega
  have hlow : 2 ^ 52 * 2 ^ q ≤ (num : ℚ) / den := by
    rw [le_div_iff₀ hden']
    have := mul_le_mul_of_nonneg_left hdenHigh.le hpos.le
    nlinarith
  have hhigh : (num : ℚ) / den < 2 * (2 ^ 53 * 2 ^ q) := by
    rw [div_lt_iff₀ hden']
    have := mul_le_mul_of_nonneg_left hdenLow hpos.le
    nlinarith
  have hfloor : n / d < Nat.pow 2 53 ↔ (num : ℚ) / den < 2 ^ 53 * 2 ^ q := by
    rw [Nat.pow_eq, Nat.div_lt_iff_lt_mul hd, ← div_lt_iff₀ hpos, ← hratio, div_lt_iff₀ hd']
    exact_mod_cast Iff.rfl
  have hbest : ∃ best : Int, (if n / d < Nat.pow 2 53 then q else q + 1) = best ∧
      (num : ℚ) / den < 2 ^ 53 * 2 ^ best ∧ 2 ^ 52 * 2 ^ best ≤ (num : ℚ) / den := by
    by_cases hlt : n / d < Nat.pow 2 53
    · exact ⟨q, if_pos hlt, hfloor.mp hlt, hlow⟩
    · refine ⟨q + 1, if_neg hlt, ?_, ?_⟩
      · rw [zpow_double]
        linarith
      · have := not_lt.mp (mt hfloor.mpr hlt)
        rw [zpow_double]
        linarith
  obtain ⟨best, hbest, hbestHigh, hbestLow⟩ := hbest
  rw [hbest]
  refine ⟨?_, le_max_right _ _, ?_⟩
  · refine hbestHigh.trans_le (mul_le_mul_of_nonneg_left ?_ (by norm_num))
    exact zpow_le_zpow_right₀ (by norm_num) (le_max_left _ _)
  · rcases le_total best (-1074) with h | h
    · exact .inl (max_eq_right h)
    · exact .inr (by rwa [max_eq_left h])

/-- A value near `m · 2 ^ q` is rounded to it if `q` is its scale. -/
lemma ofRatio_eq_encode {num den m : Nat} {q : Int} (negative : Bool) (hnum : 0 < num)
    (hden : 0 < den) (hq : IsScaleFor ((num : ℚ) / den) q)
    (hlow : (m : ℚ) - 1 / 2 ≤ num / den / 2 ^ q) (hhigh : (num : ℚ) / den / 2 ^ q ≤ m + 1 / 2)
    (hodd : m % 2 = 1 →
      (m : ℚ) - 1 / 2 < num / den / 2 ^ q ∧ (num : ℚ) / den / 2 ^ q < m + 1 / 2) :
    ofRatio negative num den = encode negative m q := by
  obtain ⟨hd, hratio⟩ := scaled_eq num q hden
  have hround := roundEven_eq hd (hratio ▸ hlow) (hratio ▸ hhigh) (hratio ▸ hodd)
  have hzero : (num == 0) = false := by simpa using hnum.ne'
  rw [ofRatio, hzero, if_neg Bool.false_ne_true, (isScaleFor_scaleFor hnum hden).eq hq]
  dsimp only
  rw [hround]

/-! ### The interval of a number -/

lemma encode_of_lt {m : Nat} (negative : Bool) (q : Int) (hm : m < 2 ^ 52) :
    encode negative m q = ofFields negative 0 m := by
  have hne : (m == Nat.pow 2 53) = false := by
    rw [Nat.pow_eq, beq_eq_false_iff_ne]
    omega
  rw [encode, hne]
  exact if_pos hm

lemma encode_of_le {m : Nat} {q : Int} (negative : Bool) (hm : 2 ^ 52 ≤ m) (hm' : m < 2 ^ 53)
    (hq : q ≤ 971) :
    encode negative m q = ofFields negative (q + 1075).toNat (m - 2 ^ 52) := by
  have hne : (m == Nat.pow 2 53) = false := by
    rw [Nat.pow_eq, beq_eq_false_iff_ne]
    omega
  rw [encode, hne]
  exact (if_neg (Nat.not_lt.mpr hm)).trans (if_neg (Int.not_lt.mpr hq))

lemma encode_carry {q : Int} (negative : Bool) (hq : q + 1 ≤ 971) :
    encode negative (2 ^ 53) q = ofFields negative (q + 1 + 1075).toNat 0 := by
  have heq : (2 ^ 53 == Nat.pow 2 53) = true := beq_self_eq_true _
  rw [encode, heq]
  exact (if_neg (Nat.lt_irrefl _)).trans ((if_neg (Int.not_lt.mpr hq)).trans
    (congrArg _ (Nat.sub_self _)))

/-- A value lies in the interval of those that round to the magnitude of `x`. The ends belong to it
if the significand is even. -/
def Rounds (x : Binary64) (v : ℚ) : Prop :=
  x.interval.1 ≤ v / 2 ^ (x.scale - 2) ∧ v / 2 ^ (x.scale - 2) ≤ x.interval.2 ∧
    (x.significand % 2 = 1 →
      x.interval.1 < v / 2 ^ (x.scale - 2) ∧ v / 2 ^ (x.scale - 2) < x.interval.2)

variable {x : Binary64} {v : ℚ}

lemma div_zpow_sub_two (v : ℚ) (s : Int) : v / 2 ^ (s - 2) = 4 * (v / 2 ^ s) := by
  rw [zpow_sub₀ (by norm_num), zpow_ofNat]
  field_simp
  norm_num

/-- A value that rounds to `x` is within half a unit of its last place. -/
lemma Rounds.near (h : x.Rounds v) (hpos : 0 < x.significand) :
    (x.significand : ℚ) - 1 / 2 ≤ v / 2 ^ x.scale ∧ v / 2 ^ x.scale ≤ x.significand + 1 / 2 ∧
      (x.significand % 2 = 1 → (x.significand : ℚ) - 1 / 2 < v / 2 ^ x.scale ∧
        v / 2 ^ x.scale < x.significand + 1 / 2) := by
  obtain ⟨hlow, hhigh, hodd⟩ := h
  have hlower : 4 * (x.significand : ℚ) - 2 ≤ x.interval.1 := by
    have hnat : 4 * x.significand ≤ x.interval.1 + 2 := by
      unfold interval
      dsimp only
      split <;> omega
    have hcast : (4 * x.significand : ℚ) ≤ x.interval.1 + 2 := by exact_mod_cast hnat
    linarith
  have hupper : (x.interval.2 : ℚ) = 4 * x.significand + 2 := by
    unfold interval
    push_cast
    rfl
  rw [div_zpow_sub_two] at hlow hhigh hodd
  rw [hupper] at hhigh hodd
  refine ⟨by linarith, by linarith, fun hm => ?_⟩
  obtain ⟨h, h'⟩ := hodd hm
  exact ⟨by linarith, by linarith⟩

/-- Just below a power of two numbers are twice as close. -/
lemma Rounds.low_of_power (h : x.Rounds v) (hm : x.significand = 2 ^ 52)
    (hs : x.scale ≠ -1074) : (2 : ℚ) ^ 52 - 1 / 4 ≤ v / 2 ^ x.scale := by
  obtain ⟨hlow, -⟩ := h
  have hlower : (x.interval.1 : ℚ) = 4 * 2 ^ 52 - 1 := by
    unfold interval
    simp only [hm, Nat.pow_eq, beq_self_eq_true, Bool.true_and, bne_iff_ne, ne_eq, hs,
      not_false_eq_true, if_true]
    norm_num
  rw [div_zpow_sub_two, hlower] at hlow
  linarith

/-- A ratio that rounds to the magnitude of a number is rounded to it. -/
lemma ofRatio_of_rounds {num den : Nat} (negative : Bool) (hfinite : x.isFinite = true)
    (hpos : 0 < x.significand) (hden : 0 < den) (h : x.Rounds (num / den)) :
    ofRatio negative num den = ofFields negative x.exponentField x.fractionField := by
  obtain ⟨hlow, hhigh, hodd⟩ := h.near hpos
  have hscale : (0 : ℚ) < 2 ^ x.scale := by positivity
  have hm := x.significand_lt
  have hm' : (x.significand : ℚ) + 1 ≤ 2 ^ 53 := by exact_mod_cast hm
  have hnum : 0 < num := by
    refine Nat.pos_of_ne_zero fun hzero => ?_
    rw [hzero, Nat.cast_zero, zero_div, zero_div] at hlow
    have : (1 : ℚ) ≤ x.significand := by exact_mod_cast hpos
    linarith
  have hleast : -1074 ≤ x.scale := by
    rcases x.fields_cases hfinite with ⟨-, hs, -⟩ | ⟨-, hs, -⟩ <;> omega
  have hlt : (num : ℚ) / den < 2 ^ 53 * 2 ^ x.scale := by
    rw [← div_lt_iff₀ hscale]
    linarith
  by_cases hfull : x.scale = -1074 ∨ 2 ^ 52 * 2 ^ x.scale ≤ (num : ℚ) / den
  · rw [ofRatio_eq_encode negative hnum hden ⟨hlt, hleast, hfull⟩ hlow hhigh hodd]
    rcases x.fields_cases hfinite with ⟨hm, -, he, hf⟩ | ⟨hm', -, hs, he, hf⟩
    · rw [encode_of_lt _ _ hm, he, hf]
    · rw [encode_of_le _ hm' hm hs, hf, ← he, Int.toNat_natCast]
  · -- The value lies below the power of two that it rounds to.
    obtain ⟨hs, hbelow⟩ := not_or.mp hfull
    rw [not_le, ← div_lt_iff₀ hscale] at hbelow
    rcases x.fields_cases hfinite with ⟨-, hs', -⟩ | ⟨hm₁, -, hs₁, he, hf⟩
    · exact absurd hs' hs
    have hm₂ : x.significand = 2 ^ 52 := by
      have : (x.significand : ℚ) < 2 ^ 52 + 1 := by linarith
      have : x.significand < 2 ^ 52 + 1 := by exact_mod_cast this
      omega
    have hnear := h.low_of_power hm₂ hs
    have hdouble : (num : ℚ) / den / 2 ^ (x.scale - 1) = 2 * (num / den / 2 ^ x.scale) := by
      rw [zpow_sub_one₀ (by norm_num)]
      field_simp
    have hscale' : (0 : ℚ) < 2 ^ (x.scale - 1) := by positivity
    have hq : IsScaleFor ((num : ℚ) / den) (x.scale - 1) := by
      refine ⟨?_, by omega, .inr ?_⟩
      · rw [← div_lt_iff₀ hscale', hdouble]
        linarith
      · rw [← le_div_iff₀ hscale', hdouble]
        linarith
    rw [ofRatio_eq_encode (m := 2 ^ 53) negative hnum hden hq
        (by rw [hdouble]; push_cast; linarith) (by rw [hdouble]; push_cast; linarith)
        (fun hodd => absurd hodd (by decide)),
      encode_carry _ (by omega), hf, hm₂, Nat.sub_self]
    congr 1
    omega

/-! ### Decimals -/

/-- The values that round to a finite number are neither very large nor very small. -/
lemma Rounds.bounds (h : x.Rounds v) (hfinite : x.isFinite = true) (hpos : 0 < x.significand) :
    (2 : ℚ) ^ (-1075 : Int) ≤ v ∧ v < 2 ^ (1025 : Int) := by
  obtain ⟨hlow, hhigh, -⟩ := h.near hpos
  have hscale : (0 : ℚ) < 2 ^ x.scale := by positivity
  have hm : (1 : ℚ) ≤ x.significand := by exact_mod_cast hpos
  have hm' : (x.significand : ℚ) < 2 ^ 53 := by exact_mod_cast x.significand_lt
  have hs : -1074 ≤ x.scale ∧ x.scale ≤ 971 := by
    rcases x.fields_cases hfinite with ⟨-, hs, -⟩ | ⟨-, hs, hs', -⟩ <;> omega
  rw [le_div_iff₀ hscale] at hlow
  rw [div_le_iff₀ hscale] at hhigh
  constructor
  · calc (2 : ℚ) ^ (-1075 : Int) ≤ 2 ^ (x.scale - 1) :=
          zpow_le_zpow_right₀ (by norm_num) (by omega)
      _ = 1 / 2 * 2 ^ x.scale := by
          rw [zpow_sub_one₀ (by norm_num)]
          ring
      _ ≤ (x.significand - 1 / 2) * 2 ^ x.scale := by
          gcongr
          linarith
      _ ≤ v := hlow
  · calc v ≤ (x.significand + 1 / 2) * 2 ^ x.scale := hhigh
      _ < 2 ^ (54 : Int) * 2 ^ x.scale := by
          have hpow : (2 : ℚ) ^ (54 : Int) = 2 * 2 ^ 53 := by norm_num
          gcongr
          rw [hpow]
          linarith
      _ = 2 ^ (54 + x.scale) := (zpow_add₀ (by norm_num) _ _).symm
      _ ≤ 2 ^ (1025 : Int) := zpow_le_zpow_right₀ (by norm_num) (by omega)

lemma two_zpow_lt_ten_zpow : (2 : ℚ) ^ (1075 : Int) < 10 ^ (400 : Int) := by
  calc (2 : ℚ) ^ (1075 : Int) ≤ (2 ^ (13 : Int)) ^ (83 : Int) := by
        rw [← zpow_mul]
        exact zpow_le_zpow_right₀ (by norm_num) (by norm_num)
    _ ≤ (10 ^ (4 : Int)) ^ (83 : Int) :=
        zpow_le_zpow_left₀ (by norm_num) (by norm_num) (by norm_num)
    _ < 10 ^ (400 : Int) := by
        rw [← zpow_mul]
        exact zpow_lt_zpow_right₀ (by norm_num) (by norm_num)

/-- A decimal that rounds to the magnitude of a number is read as that number. -/
lemma ofDecimal_of_rounds {c : Nat} {e : Int} (negative : Bool) (hfinite : x.isFinite = true)
    (hpos : 0 < x.significand) (h : x.Rounds (c * 10 ^ e)) :
    ofDecimal negative c e = ofFields negative x.exponentField x.fractionField := by
  obtain ⟨hlow, hhigh⟩ := h.bounds hfinite hpos
  have hten : (0 : ℚ) < 10 ^ e := by positivity
  have hc : 0 < c := by
    refine Nat.pos_of_ne_zero fun hzero => ?_
    rw [hzero, Nat.cast_zero, zero_mul] at hlow
    exact absurd hlow (not_le.mpr (by positivity))
  obtain ⟨hlogLow, hlogHigh⟩ := log2_bounds hc
  have hzero : (c == 0) = false := by simpa using hc.ne'
  -- Neither test for numbers that are out of range applies: their bounds are generous.
  have hlarge : ¬ 400 < (Nat.log2 c : Int) / 4 + e := by
    intro hlt
    refine absurd two_zpow_lt_ten_zpow (not_lt.mpr ?_)
    calc (10 : ℚ) ^ (400 : Int) ≤ 10 ^ ((Nat.log2 c : Int) / 4 + e) :=
          zpow_le_zpow_right₀ (by norm_num) hlt.le
      _ = 10 ^ ((Nat.log2 c : Int) / 4) * 10 ^ e := zpow_add₀ (by norm_num) _ _
      _ ≤ (2 ^ (4 : Int)) ^ ((Nat.log2 c : Int) / 4) * 10 ^ e := by
          gcongr
          exact zpow_le_zpow_left₀ (by omega) (by norm_num) (by norm_num)
      _ ≤ 2 ^ (Nat.log2 c : Int) * 10 ^ e := by
          rw [← zpow_mul]
          gcongr
          · norm_num
          · omega
      _ ≤ c * 10 ^ e := by gcongr
      _ ≤ 2 ^ (1075 : Int) := hhigh.le.trans (zpow_le_zpow_right₀ (by norm_num) (by norm_num))
  have hsmall : ¬ (Nat.log2 c : Int) + e < -400 := by
    intro hlt
    refine absurd hlow (not_le.mpr ?_)
    calc (c : ℚ) * 10 ^ e < 2 * 2 ^ (Nat.log2 c : Int) * 10 ^ e := by gcongr
      _ ≤ 10 * 10 ^ (Nat.log2 c : Int) * 10 ^ e := by
          gcongr
          · norm_num
          · exact zpow_le_zpow_left₀ (by omega) (by norm_num) (by norm_num)
      _ = 10 ^ ((Nat.log2 c : Int) + e + 1) := by
          rw [zpow_add_one₀ (by norm_num), zpow_add₀ (by norm_num)]
          ring
      _ ≤ 10 ^ (-400 : Int) := zpow_le_zpow_right₀ (by norm_num) (by omega)
      _ ≤ 2 ^ (-1075 : Int) := by
          rw [zpow_neg, zpow_neg]
          exact inv_anti₀ (by positivity) two_zpow_lt_ten_zpow.le
  rw [ofDecimal, hzero, if_neg Bool.false_ne_true]
  dsimp only
  rw [if_neg hlarge, if_neg hsmall]
  -- The sign of the exponent tells on which side of the ratio the power of ten is.
  split
  next he =>
    obtain ⟨k, rfl⟩ : ∃ k : Nat, e = -k := ⟨e.natAbs, by omega⟩
    refine ofRatio_of_rounds negative hfinite hpos (Nat.pow_pos (by decide)) ?_
    rw [Int.natAbs_neg, Int.natAbs_natCast, Nat.pow_eq, Nat.cast_pow, Nat.cast_ofNat,
      div_eq_mul_inv, ← zpow_natCast, ← zpow_neg]
    exact h
  next he =>
    obtain ⟨k, rfl⟩ : ∃ k : Nat, e = k := ⟨e.natAbs, by omega⟩
    refine ofRatio_of_rounds negative hfinite hpos Nat.one_pos ?_
    rw [Int.natAbs_natCast, Nat.pow_eq, Nat.cast_mul, Nat.cast_pow, Nat.cast_ofNat, Nat.cast_one,
      div_one, ← zpow_natCast]
    exact h

end RowPolicy.Binary64
