import Mathlib.Data.List.TakeWhile
import RowPolicy.Number.Decimal
import RowPolicy.Proofs.Number
import RowPolicy.Proofs.Number.Rounding

/-!
# Shortest decimals

The search for the shortest decimal finds one that rounds to the number, and the digits of that
decimal, written with a point, are read as the number.
-/

namespace RowPolicy

/-! ### Digits -/

namespace Number

lemma ofDigits_append (xs ys : List Char) :
    ofDigits (xs ++ ys) = ofDigits xs * 10 ^ ys.length + ofDigits ys := by
  induction ys using List.reverseRecOn with
  | nil => simp [ofDigits]
  | append_singleton ys y ih =>
    have hlast : ∀ zs : List Char, ofDigits (zs ++ [y]) = 10 * ofDigits zs + digitValue y :=
      fun zs => by simp [ofDigits]
    rw [← List.append_assoc, hlast, hlast, ih, List.length_append, List.length_singleton, pow_succ]
    ring

lemma ofDigits_zeros (k : Nat) : ofDigits (List.replicate k '0') = 0 := by
  induction k with
  | zero => rfl
  | succ k ih =>
    rw [List.replicate_succ, ← List.singleton_append, ofDigits_append, ih]
    simp [ofDigits, digitValue]

lemma pow_length_digits_le {n : Nat} (hn : 0 < n) : 10 ^ ((digits n).length - 1) ≤ n := by
  fun_induction digits n with
  | case1 n h => simpa using Nat.succ_le_of_lt hn
  | case2 n h ih =>
    have hlength := List.length_pos_of_ne_nil (digits_ne_nil (n / 10))
    rw [List.length_append, List.length_singleton, Nat.add_sub_cancel]
    calc 10 ^ (digits (n / 10)).length = 10 ^ ((digits (n / 10)).length - 1) * 10 := by
          rw [← pow_succ, Nat.sub_add_cancel hlength]
      _ ≤ n / 10 * 10 := Nat.mul_le_mul_right _ (ih (by omega))
      _ ≤ n := Nat.div_mul_le_self n 10

end Number

/-! ### Decimals -/

namespace Decimal

def value (d : Decimal) : ℚ := d.coefficient * 10 ^ d.exponent

lemma value_stripZeros (fuel : Nat) (d : Decimal) : (stripZeros fuel d).value = d.value := by
  fun_induction stripZeros fuel d with
  | case1 d => rfl
  | case2 d fuel h ih =>
    simp only [Bool.and_eq_true, bne_iff_ne, beq_iff_eq] at h
    obtain ⟨k, hk⟩ := Nat.dvd_of_mod_eq_zero h.2
    rw [ih, value, value, hk, Nat.mul_div_cancel_left k (by decide), zpow_add_one₀ (by norm_num)]
    push_cast
    ring
  | case3 d fuel h => rfl

lemma value_normalize (d : Decimal) : d.normalize.value = d.value := value_stripZeros _ d

/-- The digits before and behind the point are those of the value. -/
lemma value_digits (d : Decimal) :
    (Number.ofDigits (d.wholeDigits ++ d.fractionDigits) : ℚ) *
      10 ^ (-(d.fractionDigits.length : Int)) = d.value := by
  unfold wholeDigits fractionDigits value
  dsimp only
  split_ifs with hwhole hplaces
  · obtain ⟨k, hk⟩ : ∃ k : Nat, d.exponent = k := ⟨d.exponent.toNat, by omega⟩
    rw [hk, Int.toNat_natCast, Number.ofDigits_append, Number.ofDigits_append,
      Number.ofDigits_digits, Number.ofDigits_zeros]
    simp [Number.ofDigits, Number.digitValue]
  · rw [List.take_append_drop, Number.ofDigits_digits, List.length_drop]
    congr 2
    omega
  · rw [Number.ofDigits_append, Number.ofDigits_append, Number.ofDigits_digits,
      Number.ofDigits_zeros, List.length_append, List.length_replicate,
      Nat.sub_add_cancel (Nat.le_of_not_lt hplaces), show Number.ofDigits ['0'] = 0 from rfl,
      zero_mul, zero_mul, zero_add, zero_add, show -(d.exponent.natAbs : Int) = d.exponent by omega]

/-- A decimal written with a point is read as the nearest number. -/
lemma readMagnitude_positional (negative : Bool) (d : Decimal) :
    Binary64.readMagnitude negative (NumberLayout.positional true d)
      = some (Binary64.ofDecimal negative (Number.ofDigits (d.wholeDigits ++ d.fractionDigits))
          (-(d.fractionDigits.length : Int))) := by
  have hwhole := List.all_eq_true.mp d.wholeDigits_all
  have hfraction := List.all_eq_true.mp d.fractionDigits_all
  rw [positional_true]
  unfold Binary64.readMagnitude
  rw [List.takeWhile_append_of_pos hwhole, List.dropWhile_append_of_pos hwhole,
    List.takeWhile_cons_of_neg (by decide), List.dropWhile_cons_of_neg (by decide)]
  simp only [List.append_nil, List.takeWhile_eq_self_iff.mpr hfraction,
    List.dropWhile_eq_nil_iff.mpr hfraction, Binary64.readExponent]
  rw [if_neg (by simp [d.wholeDigits_ne_nil])]
  simp

end Decimal

namespace Binary64

variable {x : Binary64}

/-! ### Magnitudes -/

lemma ratio_eq (x : Binary64) :
    0 < x.ratio.2 ∧ (x.ratio.1 : ℚ) / x.ratio.2 = x.significand * 2 ^ x.scale := by
  unfold ratio
  split
  next hs =>
    have hpow : (2 : ℚ) ^ x.scale = _ := (zpow_natAbs 2 x.scale).1 hs
    refine ⟨Nat.two_pow_pos _, ?_⟩
    rw [hpow, div_eq_mul_inv]
  next hs =>
    have hpow : (2 : ℚ) ^ x.scale = _ := (zpow_natAbs 2 x.scale).2 hs
    refine ⟨Nat.one_pos, ?_⟩
    rw [hpow, Nat.cast_mul, Nat.cast_one, div_one]

lemma perTen_eq (num : Nat) {den : Nat} (e : Int) (hden : 0 < den) :
    0 < (perTen num den e).2 ∧
      ((perTen num den e).1 : ℚ) / (perTen num den e).2 = num / den / 10 ^ e := by
  unfold perTen
  split
  next he =>
    have hpow : (10 : ℚ) ^ e = _ := (zpow_natAbs 10 e).1 he
    refine ⟨hden, ?_⟩
    rw [hpow, div_inv_eq_mul, Nat.cast_mul, mul_div_right_comm]
  next he =>
    have hpow : (10 : ℚ) ^ e = _ := (zpow_natAbs 10 e).2 he
    refine ⟨Nat.mul_pos hden (Nat.pow_pos (by decide)), ?_⟩
    rw [hpow, Nat.cast_mul, div_div]

lemma significand_pos (h : x.isZero = false) : 0 < x.significand := by
  unfold isZero at h
  unfold significand
  have hpos := Nat.two_pow_pos 52
  by_cases he : x.exponentField = 0
  · have hfraction : x.fractionField ≠ 0 := by simpa [he] using h
    simp only [he, beq_self_eq_true, if_true]
    omega
  · simp only [beq_eq_false_iff_ne.mpr he, Bool.false_eq_true, if_false, Nat.pow_eq]
    omega

lemma eq_zero_of_isZero (h : x.isZero = true) : x = zero x.isNegative := by
  simp only [isZero, Bool.and_eq_true, beq_iff_eq] at h
  conv_lhs => rw [← x.ofFields_fields, h.1, h.2]
  rfl

/-! ### The grids -/

/-- Reading back is decided exactly. -/
lemma readsBack_iff (x : Binary64) (c : Nat) (e : Int) :
    x.readsBack c e = true ↔ x.Rounds (c * 10 ^ e) := by
  unfold readsBack Rounds
  dsimp only
  -- Both sides are multiplied until they are natural numbers.
  generalize hleft : (if e < 0 then c else c * Nat.pow 10 e.natAbs) *
    (if x.scale - 2 < 0 then Nat.pow 2 (x.scale - 2).natAbs else 1) = left
  generalize hunit : (if x.scale - 2 < 0 then 1 else Nat.pow 2 (x.scale - 2).natAbs) *
    (if e < 0 then Nat.pow 10 e.natAbs else 1) = unit
  have hpos : 0 < unit := by
    rw [← hunit]
    refine Nat.mul_pos ?_ ?_ <;> split <;> first | exact Nat.one_pos | exact Nat.pow_pos (by decide)
  have hpos' : (0 : ℚ) < unit := by exact_mod_cast hpos
  have hratio : (c : ℚ) * 10 ^ e / 2 ^ (x.scale - 2) = left / unit := by
    rw [← hleft, ← hunit]
    have hten := zpow_natAbs 10 e
    have htwo := zpow_natAbs 2 (x.scale - 2)
    rw [Nat.cast_ofNat] at hten htwo
    by_cases he : e < 0 <;> by_cases hq : x.scale - 2 < 0
    · rw [hten.1 he, htwo.1 hq, div_inv_eq_mul]
      simp only [if_pos he, if_pos hq, Nat.cast_mul, Nat.cast_one]
      ring
    · rw [hten.1 he, htwo.2 hq]
      simp only [if_pos he, if_neg hq, Nat.cast_mul, Nat.cast_one]
      ring
    · rw [hten.2 he, htwo.1 hq, div_inv_eq_mul]
      simp only [if_neg he, if_pos hq, Nat.cast_mul, Nat.cast_one]
      ring
    · rw [hten.2 he, htwo.2 hq]
      simp only [if_neg he, if_neg hq, Nat.cast_mul, Nat.cast_one]
      ring
  have hle : ∀ b : Nat, (b : ℚ) ≤ c * 10 ^ e / 2 ^ (x.scale - 2) ↔ b * unit ≤ left := fun b => by
    rw [hratio, le_div_iff₀ hpos']
    exact_mod_cast Iff.rfl
  have hge : ∀ b : Nat, (c : ℚ) * 10 ^ e / 2 ^ (x.scale - 2) ≤ b ↔ left ≤ b * unit := fun b => by
    rw [hratio, div_le_iff₀ hpos']
    exact_mod_cast Iff.rfl
  simp only [← not_le (α := ℚ), hle, hge]
  -- Ties go to the even significand, so only then do the bounds themselves count.
  by_cases hodd : x.significand % 2 = 0
  · simp [hodd]
  · have hone : x.significand % 2 = 1 := by omega
    simp only [hone, Nat.one_ne_zero, beq_iff_eq, if_false, Bool.and_eq_true, decide_eq_true_eq,
      forall_const]
    omega

lemma rounds_of_onGrid {e : Int} {d : Decimal} (h : x.onGrid e = some d) :
    x.Rounds d.value := by
  unfold onGrid at h
  dsimp only at h
  split_ifs at h with hlow hhigh
  · cases h
    exact (x.readsBack_iff _ e).mp (Bool.and_eq_true_iff.mp hlow).1
  · cases h
    exact (x.readsBack_iff _ e).mp hhigh

lemma onGrid_isSome {e : Int} {k : Nat} (hk : k = (perTen x.ratio.1 x.ratio.2 e).1 /
    (perTen x.ratio.1 x.ratio.2 e).2) (h : x.Rounds (k * 10 ^ e)) : (x.onGrid e).isSome = true := by
  have hlow : x.readsBack k e = true := (x.readsBack_iff k e).mpr h
  unfold onGrid
  dsimp only
  rw [← hk, hlow]
  cases x.readsBack (k + 1) e with
  | false => simp
  | true => split <;> simp

/-! ### The search -/

lemma tensBelow_spec {num den fuel k m : Nat} (h : den ≤ num * 10 ^ m) (hm : m ≤ k + fuel) :
    den ≤ num * 10 ^ tensBelow num den fuel k := by
  fun_induction tensBelow num den fuel k with
  | case1 k => exact h.trans (Nat.mul_le_mul_left num (Nat.pow_le_pow_right (by decide) hm))
  | case2 fuel k hle => exact hle
  | case3 fuel k hle ih => exact ih (by omega)

lemma leadingExponent_le {num den : Nat} (hden : 0 < den)
    (h : (10 : ℚ) ^ (-400 : Int) ≤ num / den) :
    (10 : ℚ) ^ leadingExponent num den ≤ num / den := by
  have hden' : (0 : ℚ) < den := by exact_mod_cast hden
  unfold leadingExponent
  split
  next hle =>
    have hpos : 0 < num / den := Nat.div_pos hle hden
    have hlength := List.length_pos_of_ne_nil (Number.digits_ne_nil (num / den))
    have hpow := Number.pow_length_digits_le hpos
    rw [show ((Number.digits (num / den)).length : Int) - 1
      = ((Number.digits (num / den)).length - 1 : Nat) by omega, zpow_natCast, le_div_iff₀ hden']
    exact_mod_cast (Nat.mul_le_mul_right den hpow).trans (Nat.div_mul_le_self num den)
  next hlt =>
    have hfar : den ≤ num * 10 ^ 400 := by
      rw [zpow_neg, zpow_ofNat, inv_le_iff_one_le_mul₀ (by positivity), div_mul_eq_mul_div,
        le_div_iff₀ hden', one_mul] at h
      exact_mod_cast h
    have hnear : (den : ℚ) ≤ num * 10 ^ tensBelow num den 400 1 := by
      exact_mod_cast tensBelow_spec hfar (by omega)
    rw [zpow_neg, zpow_natCast, inv_le_iff_one_le_mul₀ (by positivity), div_mul_eq_mul_div,
      le_div_iff₀ hden', one_mul]
    exact hnear

/-- On a grid as fine as a unit in the eighteenth digit the decimal just below a number rounds
to it. -/
lemma rounds_floor {e : Int} {k : Nat} (hpos : 0 < x.significand)
    (hlow : (k : ℚ) * 10 ^ e ≤ x.significand * 2 ^ x.scale)
    (hhigh : (x.significand : ℚ) * 2 ^ x.scale < (k + 1) * 10 ^ e)
    (hfine : (10 : ℚ) ^ (e + 17) ≤ x.significand * 2 ^ x.scale) : x.Rounds (k * 10 ^ e) := by
  have hscale : (0 : ℚ) < 2 ^ x.scale := by positivity
  have hm : (x.significand : ℚ) < 2 ^ 53 := by exact_mod_cast x.significand_lt
  -- The step of the grid is less than a quarter of the last binary place.
  have hstep : (10 : ℚ) ^ e < 2 ^ x.scale / 4 := by
    rw [zpow_add₀ (by norm_num)] at hfine
    have hsmall : (x.significand : ℚ) * 2 ^ x.scale < 2 ^ 53 * 2 ^ x.scale := by gcongr
    have hpow : (2 : ℚ) ^ 55 ≤ 10 ^ (17 : Int) := by norm_num
    nlinarith [mul_le_mul_of_nonneg_left hpow (show (0 : ℚ) ≤ 10 ^ e by positivity)]
  have hbelow : (x.significand : ℚ) - 1 / 4 < k * 10 ^ e / 2 ^ x.scale := by
    rw [lt_div_iff₀ hscale]
    linarith
  have habove : (k : ℚ) * 10 ^ e / 2 ^ x.scale ≤ x.significand := by rwa [div_le_iff₀ hscale]
  have hfirst : (x.interval.1 : ℚ) ≤ 4 * x.significand - 1 := by
    have hnat : x.interval.1 + 1 ≤ 4 * x.significand := by
      unfold interval
      dsimp only
      split <;> omega
    have hcast : (x.interval.1 : ℚ) + 1 ≤ 4 * x.significand := by exact_mod_cast hnat
    linarith
  have hsecond : (x.interval.2 : ℚ) = 4 * x.significand + 2 := by
    unfold interval
    push_cast
    rfl
  rw [Rounds, div_zpow_sub_two, hsecond]
  exact ⟨by linarith, by linarith, fun _ => ⟨by linarith, by linarith⟩⟩

/-- The search ends with a decimal that rounds to the number if one of its grids has one. -/
lemma rounds_shortestFrom {fuel : Nat} {e : Int}
    (h : ∃ k : Nat, k ≤ fuel ∧ (x.onGrid (e - k)).isSome = true) :
    x.Rounds (x.shortestFrom fuel e).value := by
  obtain ⟨k, hk, hsome⟩ := h
  induction fuel generalizing e k with
  | zero =>
    obtain rfl : k = 0 := by omega
    rw [Nat.cast_zero, sub_zero] at hsome
    obtain ⟨d, hd⟩ := Option.isSome_iff_exists.mp hsome
    rw [shortestFrom, hd]
    exact rounds_of_onGrid hd
  | succ fuel ih =>
    rw [shortestFrom]
    cases hgrid : x.onGrid e with
    | some d => exact rounds_of_onGrid hgrid
    | none =>
      obtain ⟨j, rfl⟩ : ∃ j, k = j + 1 := by
        refine Nat.exists_eq_succ_of_ne_zero fun hzero => ?_
        rw [hzero, Nat.cast_zero, sub_zero, hgrid] at hsome
        cases hsome
      refine ih j (by omega) ?_
      rwa [show e - 1 - (j : Int) = e - (j + 1 : Nat) by push_cast; ring]

/-- The shortest decimal of a finite number that is not zero rounds to it. -/
lemma rounds_shortest (hfinite : x.isFinite = true) (hzero : x.isZero = false) :
    x.Rounds x.shortest.value := by
  have hpos := significand_pos hzero
  obtain ⟨hden, hratio⟩ := x.ratio_eq
  have hleast : (10 : ℚ) ^ (-400 : Int) ≤ x.ratio.1 / x.ratio.2 := by
    have hs : -1074 ≤ x.scale := by
      rcases x.fields_cases hfinite with ⟨-, hs, -⟩ | ⟨-, hs, -⟩ <;> omega
    have hone : (1 : ℚ) ≤ x.significand := by exact_mod_cast hpos
    rw [hratio]
    calc (10 : ℚ) ^ (-400 : Int) ≤ 2 ^ (-1075 : Int) := by
          rw [zpow_neg, zpow_neg]
          exact inv_anti₀ (by positivity) two_zpow_lt_ten_zpow.le
      _ ≤ 2 ^ x.scale := zpow_le_zpow_right₀ (by norm_num) (by omega)
      _ ≤ x.significand * 2 ^ x.scale := le_mul_of_one_le_left (by positivity) hone
  have hleading := leadingExponent_le hden hleast
  rw [shortest, hzero, if_neg Bool.false_ne_true, Decimal.value_normalize]
  -- With seventeen digits the grid is fine enough for any number.
  refine rounds_shortestFrom ⟨17, le_rfl, ?_⟩
  generalize leadingExponent x.ratio.1 x.ratio.2 = top at hleading
  obtain ⟨hd, hquotient⟩ := perTen_eq x.ratio.1 (top - (17 : Nat)) hden
  have hd' : (0 : ℚ) < (perTen x.ratio.1 x.ratio.2 (top - (17 : Nat))).2 := by exact_mod_cast hd
  have hten : (0 : ℚ) < 10 ^ (top - ((17 : Nat) : Int)) := by positivity
  rw [hratio, div_eq_iff hd'.ne', eq_comm] at hquotient
  refine onGrid_isSome rfl (rounds_floor hpos ?_ ?_ ?_)
  · rw [← le_div_iff₀ hten, ← mul_le_mul_iff_left₀ hd', hquotient]
    exact_mod_cast Nat.div_mul_le_self _ _
  · rw [← div_lt_iff₀ hten, ← mul_lt_mul_iff_left₀ hd', hquotient]
    exact_mod_cast (Nat.lt_div_mul_add hd).trans_eq (Nat.succ_mul _ _).symm
  · rw [Nat.cast_ofNat, sub_add_cancel, ← hratio]
    exact hleading

/-- A finite number is read back from its shortest decimal. -/
lemma readMagnitude_shortest (hfinite : x.isFinite = true) :
    readMagnitude x.isNegative (NumberLayout.positional true x.shortest) = some x := by
  rw [Decimal.readMagnitude_positional]
  cases hzero : x.isZero with
  | true =>
    conv_rhs => rw [eq_zero_of_isZero hzero]
    rw [shortest, hzero, if_pos rfl, ofDecimal,
      show Number.ofDigits
          ((⟨0, 0⟩ : Decimal).wholeDigits ++ (⟨0, 0⟩ : Decimal).fractionDigits) = 0 by
        decide +kernel]
    rfl
  | false =>
    have hrounds := rounds_shortest hfinite hzero
    rw [← Decimal.value_digits] at hrounds
    rw [ofDecimal_of_rounds _ hfinite (significand_pos hzero) hrounds, ofFields_fields]

end Binary64

end RowPolicy
