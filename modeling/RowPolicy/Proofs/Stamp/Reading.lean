import RowPolicy.Proofs.Number.Shortest
import RowPolicy.Proofs.Outcome
import RowPolicy.Proofs.Stamp.Calendar
import RowPolicy.Stamp.Uuid

/-!
# Stamps read back

The text of an identifier is read as the identifier, and the text of an instant as the instant.
-/

namespace RowPolicy

/-! ### Padded numbers -/

variable {c : Char} {ds : List Char}

namespace Instant

def padded (width n : Nat) : List Char :=
  List.replicate (width - (Number.digits n).length) '0' ++ Number.digits n

lemma toList_padZero (width n : Nat) : (padZero width n).toList = padded width n :=
  String.toList_ofList

lemma padded_all (width n : Nat) : (padded width n).all Char.isDigit = true := by
  rw [padded, List.all_append, Number.all_replicate_zero, Number.digits_all]
  rfl

lemma padded_ne_nil (width n : Nat) : padded width n ≠ [] := by
  simp [padded, Number.digits_ne_nil]

variable {width n : Nat} {rest : List Char}

lemma isDigit_of_padded {more : List Char} (h : padded width n ++ rest = c :: more) :
    c.isDigit = true := by
  have hall := padded_all width n
  cases hp : padded width n with
  | nil => exact absurd hp (padded_ne_nil width n)
  | cons d ds =>
    rw [hp] at h hall
    obtain ⟨rfl, -⟩ := List.cons.inj h
    rw [List.all_cons, Bool.and_eq_true] at hall
    exact hall.1

lemma ofDigits_padded (width n : Nat) : Number.ofDigits (padded width n) = n := by
  rw [padded, Number.ofDigits_append, Number.ofDigits_zeros, Number.ofDigits_digits]
  omega

lemma length_digits_le (hwidth : 0 < width) (h : n < 10 ^ width) :
    (Number.digits n).length ≤ width := by
  rcases Nat.eq_zero_or_pos n with rfl | hn
  · have hzero : Number.digits 0 = ['0'] := by
      rw [Number.digits]
      rfl
    rw [hzero]
    exact hwidth
  · have hpow := (Number.pow_length_digits_le hn).trans_lt h
    have hlength := (Nat.pow_lt_pow_iff_right (by decide)).mp hpow
    omega

lemma length_padded (hwidth : 0 < width) (h : n < 10 ^ width) :
    (padded width n).length = width := by
  have hlength := length_digits_le hwidth h
  rw [padded, List.length_append, List.length_replicate]
  omega

def noDigit (cs : List Char) : Prop := ∀ c, cs.head? = some c → c.isDigit = false

lemma takeWhile_noDigit {cs : List Char} (h : noDigit cs) (k : Nat) :
    (cs.take k).takeWhile Char.isDigit = [] := by
  cases cs with
  | nil => simp
  | cons c cs =>
    cases k with
    | zero => rfl
    | succ k => simp [h c rfl]

/-- A run of digits that ends, or is as long as it may be, is read as its number. -/
lemma readNumber_digits {most : Nat} (hall : ds.all Char.isDigit = true) (hne : ds ≠ [])
    (hmost : ds.length ≤ most) (hend : ds.length = most ∨ noDigit rest)
    (hbound : Number.ofDigits ds ≤ Number.maxInt64.toNat) :
    readNumber most (ds ++ rest) = .ok (Number.ofDigits ds, rest) := by
  have htake : ((ds ++ rest).take most).takeWhile Char.isDigit = ds := by
    rw [List.take_append, List.take_of_length_le hmost,
      List.takeWhile_append_of_pos (List.all_eq_true.mp hall)]
    obtain hlength | hrest := hend
    · simp [hlength]
    · rw [takeWhile_noDigit hrest, List.append_nil]
  have hnil : (ds ++ rest).isEmpty = false := by
    cases ds with
    | nil => exact absurd rfl hne
    | cons d ds => rfl
  have hds : ds.isEmpty = false := by simpa using hne
  unfold readNumber
  simp only [htake, hnil, hds, Bool.false_eq_true, if_false, if_neg (Nat.not_lt.mpr hbound),
    List.drop_left]

lemma skipBlanks_cons (h : Text.isBlank c = false) (cs : List Char) :
    skipBlanks (c :: cs) = c :: cs := by
  rw [skipBlanks, List.dropWhile_cons, h]
  rfl

lemma isBlank_of_isDigit (h : c.isDigit = true) : Text.isBlank c = false := by
  simp only [Char.isDigit, ge_iff_le, Bool.and_eq_true, decide_eq_true_eq,
    UInt32.le_iff_toNat_le] at h
  change 48 ≤ c.toNat ∧ c.toNat ≤ 57 at h
  simp only [Text.isBlank, Bool.or_eq_false_iff, Bool.and_eq_false_iff, decide_eq_false_iff_not,
    beq_eq_false_iff_ne]
  omega

lemma skipBlanks_digits (hall : ds.all Char.isDigit = true) (hne : ds ≠ []) (rest : List Char) :
    skipBlanks (ds ++ rest) = ds ++ rest := by
  cases ds with
  | nil => exact absurd rfl hne
  | cons d ds =>
    rw [List.all_cons, Bool.and_eq_true] at hall
    exact skipBlanks_cons (isBlank_of_isDigit hall.1) _

/-! ### Parts of a time -/

lemma readField_padded {least greatest : Nat} (hleast : least ≤ n) (hgreatest : n ≤ greatest)
    (hwidth : greatest < 100) (rest : List Char) :
    readField least greatest (padded 2 n ++ rest) = .ok (n, rest) := by
  have hlength : (padded 2 n).length = 2 := length_padded (by decide) (by omega)
  have hread : readNumber 2 (padded 2 n ++ rest) = .ok (Number.ofDigits (padded 2 n), rest) :=
    readNumber_digits (padded_all 2 n) (padded_ne_nil 2 n) hlength.le (.inl hlength)
      (by rw [ofDigits_padded]; unfold Number.maxInt64; omega)
  rw [ofDigits_padded] at hread
  rw [readField, skipBlanks_digits (padded_all 2 n) (padded_ne_nil 2 n), hread, ok_bind]
  have hrange : (decide (n < least) || decide (greatest < n)) = false := by
    simp [hleast, hgreatest]
  simp only [hrange, Bool.false_eq_true, if_false]
  rfl

lemma readMark_cons {mark : Char} (h : Text.isBlank mark = false) (rest : List Char) :
    readMark mark (mark :: rest) = .ok rest := by
  unfold readMark
  rw [skipBlanks_cons h]
  simp

def yearChars (year : Int) : List Char :=
  if 0 ≤ year ∧ year ≤ 9999 then padded 4 year.natAbs
  else (if year < 0 then '-' else '+') :: padded 4 year.natAbs

lemma toList_yearText (year : Int) : (yearText year).toList = yearChars year := by
  unfold yearText yearChars
  simp only [Bool.and_eq_true, decide_eq_true_eq]
  split
  · exact toList_padZero _ _
  · rw [String.toList_append, toList_padZero]
    split <;> rfl

/-- A year within the calendar is read back if no digit follows. -/
lemma readYear_yearChars {year : Int} (h : year.natAbs ≤ 262142) (hrest : noDigit rest) :
    readYear (yearChars year ++ rest) = .ok (year, rest) := by
  have hinner : ∀ most, (padded 4 year.natAbs).length ≤ most →
      (padded 4 year.natAbs).length = most ∨ noDigit rest →
      readNumber most (padded 4 year.natAbs ++ rest) = .ok (year.natAbs, rest) := by
    intro most hmost hend
    have hread := readNumber_digits (padded_all 4 year.natAbs) (padded_ne_nil _ _) hmost hend
      (by rw [ofDigits_padded]; unfold Number.maxInt64; omega)
    rwa [ofDigits_padded] at hread
  have hrange : (decide (year < -2147483648) || decide (2147483647 < year)) = false := by
    simp only [Bool.or_eq_false_iff, decide_eq_false_iff_not]
    omega
  have hsigned := hinner (padded 4 year.natAbs ++ rest).length (by simp) (.inr hrest)
  unfold yearChars
  split_ifs with hfour hneg
  · -- Without a sign a year has four digits, whatever follows.
    have hlength : (padded 4 year.natAbs).length = 4 := length_padded (by decide) (by omega)
    have hread := hinner 4 hlength.le (.inl hlength)
    have habs : (year.natAbs : Int) = year := by omega
    unfold readYear
    rw [skipBlanks_digits (padded_all _ _) (padded_ne_nil _ _)]
    split
    next more hmore => exact absurd (isDigit_of_padded hmore) (by decide)
    next more hmore => exact absurd (isDigit_of_padded hmore) (by decide)
    next =>
      rw [hread]
      simp only [ok_bind, pure_bind, habs, hrange, Bool.false_eq_true, if_false]
      rfl
  · -- With a sign the year goes on to the last digit.
    have habs : -(year.natAbs : Int) = year := by omega
    rw [List.cons_append, readYear, skipBlanks_cons (by decide)]
    simp only [hsigned, ok_bind, pure_bind, habs, hrange, Bool.false_eq_true, if_false]
    rfl
  · have habs : (year.natAbs : Int) = year := by omega
    rw [List.cons_append, readYear, skipBlanks_cons (by decide)]
    simp only [hsigned, ok_bind, pure_bind, habs, hrange, Bool.false_eq_true, if_false]
    rfl

lemma noDigit_cons (h : c.isDigit = false) (cs : List Char) : noDigit (c :: cs) := by
  intro d hd
  cases hd
  exact h

lemma readFraction_padded (hwidth : 0 < width) (hmost : width ≤ 9) (hn : n < 10 ^ width) :
    readFraction ('.' :: (padded width n ++ ['Z'])) = .ok (n * 10 ^ (9 - width), ['Z']) := by
  have hlength := length_padded hwidth hn
  have hbound : n < 10 ^ 9 := hn.trans_le (Nat.pow_le_pow_right (by decide) hmost)
  have hread := readNumber_digits (padded_all width n) (padded_ne_nil _ _)
    (hlength.trans_le hmost) (.inr (noDigit_cons (c := 'Z') (by decide) []))
    (by rw [ofDigits_padded]; unfold Number.maxInt64; omega)
  rw [ofDigits_padded] at hread
  rw [readFraction, hread, ok_bind]
  simp only [List.length_append, List.length_singleton, Nat.add_sub_cancel, hlength]
  rfl

lemma readFraction_text {nanos : Nat} (h : nanos < 1000000000) :
    readFraction ((fractionText nanos).toList ++ ['Z']) = .ok (nanos, ['Z']) := by
  unfold fractionText
  split_ifs with hzero hmillis hmicros
  · rw [eq_of_beq hzero]
    rfl
  · have hexact : nanos / 1000000 * 10 ^ (9 - 3) = nanos :=
      Nat.div_mul_cancel (Nat.dvd_of_mod_eq_zero (eq_of_beq hmillis))
    rw [String.toList_append, toList_padZero]
    exact (readFraction_padded (by decide) (by decide) (by omega)).trans (by rw [hexact])
  · have hexact : nanos / 1000 * 10 ^ (9 - 6) = nanos :=
      Nat.div_mul_cancel (Nat.dvd_of_mod_eq_zero (eq_of_beq hmicros))
    rw [String.toList_append, toList_padZero]
    exact (readFraction_padded (by decide) (by decide) (by omega)).trans (by rw [hexact])
  · have hexact : nanos * 10 ^ (9 - 9) = nanos := Nat.mul_one nanos
    rw [String.toList_append, toList_padZero]
    exact (readFraction_padded (by decide) (by decide) h).trans (by rw [hexact])

/-! ### Whole instants -/

/-- An instant within the calendar and not in a leap second. -/
structure IsRegular (t : Instant) : Prop where
  nanos : t.nanos < 1000000000
  year : (CivilDate.ofDays (t.seconds / 86400)).year.natAbs ≤ 262142

instance (t : Instant) : Decidable t.IsRegular :=
  decidable_of_iff (t.nanos < 1000000000 ∧
      (CivilDate.ofDays (t.seconds / 86400)).year.natAbs ≤ 262142)
    ⟨fun h => ⟨h.1, h.2⟩, fun h => ⟨h.1, h.2⟩⟩

lemma parse_text {t : Instant} (h : t.IsRegular) : parse t.text = .ok t := by
  obtain ⟨d, hd⟩ : ∃ d, d = CivilDate.ofDays (t.seconds / 86400) := ⟨_, rfl⟩
  obtain ⟨s, hs⟩ : ∃ s, s = (t.seconds % 86400).toNat := ⟨_, rfl⟩
  have hvalid : d.IsValid := hd ▸ CivilDate.ofDays_isValid _
  have hdays : d.toDays = t.seconds / 86400 := hd ▸ CivilDate.toDays_ofDays _
  have hyear : d.year.natAbs ≤ 262142 := hd ▸ h.year
  have hlength : d.day ≤ 31 := by
    refine hvalid.day_le.trans ?_
    unfold CivilDate.daysInMonth
    split_ifs <;> omega
  have hchars : t.text.toList = yearChars d.year ++ '-' :: (padded 2 d.month ++ '-' ::
      (padded 2 d.day ++ 'T' :: (padded 2 (s / 3600) ++ ':' :: (padded 2 (s / 60 % 60) ++ ':' ::
        (padded 2 (s % 60) ++ ((fractionText t.nanos).toList ++ ['Z'])))))) := by
    have hleap : ¬ 1000000000 ≤ t.nanos := Nat.not_le.mpr h.nanos
    simp only [text, dateText, timeText, ← hd, ← hs, if_neg hleap, Nat.add_zero,
      Nat.mod_eq_of_lt h.nanos, String.toList_append, toList_yearText, toList_padZero]
    simp
  have hblank : Text.isBlank '-' = false ∧ Text.isBlank ':' = false ∧ Text.isBlank 'Z' = false := by
    decide
  rw [parse, hchars, readYear_yearChars hyear (noDigit_cons (by decide) _), ok_bind]
  simp only [readMark_cons hblank.1, readMark_cons hblank.2.1, ok_bind,
    readField_padded hvalid.month_pos hvalid.month_le (by decide),
    readField_padded hvalid.day_pos hlength (by decide), beq_self_eq_true, Bool.true_or, if_true,
    pure_bind, readField_padded (Nat.zero_le _) (by omega : s / 3600 ≤ 23) (by decide),
    readField_padded (Nat.zero_le _) (by omega : s / 60 % 60 ≤ 59) (by decide),
    readField_padded (Nat.zero_le _) (by omega : s % 60 ≤ 60) (by decide),
    readFraction_text h.nanos, skipBlanks_cons hblank.2.2]
  -- The zone is UTC, and no second is a leap second.
  have hzone : readZone ['Z'] = .ok (0, []) := rfl
  have hleap : (s % 60 == 60) = false := beq_eq_false_iff_ne.mpr (by omega)
  have hseconds : d.toDays * 86400 + ((s / 3600 : Nat) * 3600 + (s / 60 % 60 : Nat) * 60
      + (s % 60 : Nat)) - 0 = t.seconds := by
    rw [hdays]
    omega
  simp only [hzone, ok_bind, if_neg (Nat.not_lt.mpr hyear), if_neg (Nat.not_lt.mpr hvalid.day_le),
    hleap, Bool.false_eq_true, if_false, hseconds]
  rfl

end Instant

/-! ### Identifiers -/

namespace Uuid

lemma foldl_hexDigits (n k : Nat) :
    ((List.range k).map fun i => n / 16 ^ (k - 1 - i) % 16).foldl (fun m d => 16 * m + d) 0 =
      n % 16 ^ k := by
  induction k generalizing n with
  | zero => simp [Nat.mod_one]
  | succ k ih =>
    have hdigits : (List.range k).map (fun i => n / 16 ^ (k + 1 - 1 - i) % 16) =
        (List.range k).map fun i => n / 16 / 16 ^ (k - 1 - i) % 16 := by
      refine List.map_congr_left fun i hi => ?_
      have hpow : 16 ^ (k + 1 - 1 - i) = 16 * 16 ^ (k - 1 - i) := by
        rw [← Nat.pow_succ']
        congr 1
        have := List.mem_range.mp hi
        omega
      rw [hpow, Nat.div_div_eq_div_mul]
    rw [List.range_succ, List.map_append, List.foldl_append, hdigits, ih]
    simp only [List.map_cons, List.map_nil, List.foldl_cons, List.foldl_nil, Nat.add_sub_cancel,
      Nat.sub_self, Nat.pow_zero, Nat.div_one]
    rw [Nat.pow_succ', Nat.mod_mul, Nat.add_comm]

lemma mapM_hexValue {g : Nat → Nat} (hg : ∀ i, g i < 16) (is : List Nat) :
    (is.map fun i => Json.hexDigit (g i)).mapM Json.hexValue? = some (is.map g) := by
  have hhex : ∀ d < 16, Json.hexValue? (Json.hexDigit d) = some d := by decide
  induction is with
  | nil => rfl
  | cons i is ih =>
    rw [List.map_cons, List.mapM_cons, hhex _ (hg i), ih]
    rfl

lemma length_hexDigits (u : Uuid) : u.hexDigits.length = 32 := by simp [hexDigits]

lemma ofHex?_hexDigits (u : Uuid) : ofHex? u.hexDigits = some u := by
  have hvalues := mapM_hexValue (g := fun i => u.value.toNat / 16 ^ (32 - 1 - i) % 16)
    (fun i => Nat.mod_lt _ (by decide)) (List.range 32)
  unfold ofHex?
  rw [length_hexDigits, hexDigits]
  simp only [beq_self_eq_true, if_true]
  refine (congrArg _ hvalues).trans ?_
  have hbits : u.value.toNat < 16 ^ 32 := u.value.isLt
  rw [Option.map_some, foldl_hexDigits, Nat.mod_eq_of_lt hbits, BitVec.ofNat_toNat,
    BitVec.setWidth_eq]

lemma mem_hexDigits {u : Uuid} (h : c ∈ u.hexDigits) :
    c ≠ '-' ∧ c ≠ '\x7b' ∧ c ≠ 'u' := by
  have hhex : ∀ d < 16, Json.hexDigit d ≠ '-' ∧ Json.hexDigit d ≠ '\x7b' ∧
      Json.hexDigit d ≠ 'u' := by decide
  obtain ⟨i, -, rfl⟩ := List.mem_map.mp h
  exact hhex _ (Nat.mod_lt _ (by decide))

lemma filter_grouped (h : ∀ c ∈ ds, c ≠ '-') :
    (grouped ds).filter (· != '-') = ds := by
  have hkeep : ∀ cs : List Char, (∀ c ∈ cs, c ∈ ds) → cs.filter (· != '-') = cs := fun cs hcs =>
    List.filter_eq_self.mpr fun c hc => bne_iff_ne.mpr (h c (hcs c hc))
  have hpart : ∀ k m, ((ds.drop k).take m).filter (· != '-') = (ds.drop k).take m := fun k m =>
    hkeep _ fun c hc => List.mem_of_mem_drop (List.mem_of_mem_take hc)
  have hjoin : ∀ k m, (ds.drop k).take m ++ ds.drop (k + m) = ds.drop k := fun k m => by
    rw [← List.drop_drop, List.take_append_drop]
  have hhyphen : ∀ cs : List Char, ('-' :: cs).filter (· != '-') = cs.filter (· != '-') :=
    fun _ => rfl
  rw [grouped]
  simp only [List.filter_append, hhyphen, hpart, List.append_assoc,
    hkeep _ fun c => List.mem_of_mem_take, hkeep _ fun c => List.mem_of_mem_drop]
  rw [hjoin 16 4, hjoin 12 4, hjoin 8 4, List.take_append_drop]

lemma unwrap_grouped (hc : c ≠ '\x7b') (hu : c ≠ 'u') :
    unwrap (c :: ds) = (c :: ds, 0, true) := by
  unfold unwrap
  split
  next rest heq => exact absurd (List.cons.inj heq).1 hc
  next =>
    have hurn : ((c :: ds).take "urn:uuid:".toList.length == "urn:uuid:".toList) = false := by
      refine beq_eq_false_iff_ne.mpr fun h => hu ?_
      exact (List.cons.inj h).1
    simp only [hurn, Bool.false_eq_true, if_false]

lemma parse_text (u : Uuid) : parse u.text = .ok u := by
  obtain ⟨c, rest, hgrouped, hc⟩ : ∃ c rest, grouped u.hexDigits = c :: rest ∧ c ∈ u.hexDigits :=
    ⟨_, _, rfl, by simp [hexDigits, List.range_succ]⟩
  have hlength : (grouped u.hexDigits).length = 36 := by
    simp [grouped, length_hexDigits]
  have hunwrap : unwrap (grouped u.hexDigits) = (grouped u.hexDigits, 0, true) := by
    rw [hgrouped]
    exact unwrap_grouped (mem_hexDigits hc).2.1 (mem_hexDigits hc).2.2
  have hhyphenated : ofHyphenated? (grouped u.hexDigits) = some u := by
    unfold ofHyphenated?
    rw [filter_grouped fun c hc => (mem_hexDigits hc).1]
    simp [ofHex?_hexDigits]
  have hbare : ofHex? (grouped u.hexDigits) = none := by
    rw [ofHex?, hlength]
    rfl
  unfold parse text
  simp [hunwrap, hbare, hhyphenated]

end Uuid

end RowPolicy
