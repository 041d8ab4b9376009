import RowPolicy.Json.Printer
import RowPolicy.Json.Token
import RowPolicy.Proofs.Number.Shortest

/-!
# Numerals in texts

Numbers are printed as numerals, and a numeral is read as one token. The token of an integer is
that integer; the token of a real may be another real, or malformed if it is out of range.
-/

namespace RowPolicy.Json

/-! ### Numerals -/

namespace Numeral

def chars (n : Numeral) : List Char :=
  (if n.negative then ['-'] else []) ++ (n.whole
    ++ ((match n.fraction with
        | none => []
        | some fs => '.' :: fs)
      ++ match n.exponent with
        | none => []
        | some (down, ds) => 'e' :: (if down then '-' else '+') :: ds))

/-- The parts of a numeral are digits, without a zero in front. -/
structure IsWritten (n : Numeral) : Prop where
  whole_ne : n.whole ≠ []
  whole : n.whole.all Char.isDigit = true
  leading : n.whole = ['0'] ∨ n.whole.head? ≠ some '0'
  fraction : ∀ fs, n.fraction = some fs → fs ≠ [] ∧ fs.all Char.isDigit = true
  exponent : ∀ down ds, n.exponent = some (down, ds) → ds ≠ [] ∧ ds.all Char.isDigit = true

def token (n : Numeral) : Token :=
  match n.value with
  | .ok j => .number j
  | .error e => .malformed false e

/-- Where the reading of a whole part ends. -/
def wholeState (negative : Bool) (whole : List Char) : NumeralState :=
  if whole = ['0'] then .zero negative else .whole negative whole.reverse

/-- Where the reading of a numeral ends. -/
def lastState (n : Numeral) : NumeralState :=
  match n.fraction, n.exponent with
  | none, none => wholeState n.negative n.whole
  | some fs, none => .fraction n.negative n.whole.reverse fs.reverse
  | f, some (down, ds) =>
    .exponent n.negative n.whole.reverse (f.map List.reverse) down ds.reverse

lemma numberToken_lastState (n : Numeral) : numberToken n.lastState = n.token := by
  have hfinish : n.lastState.finish = n.value := by
    obtain ⟨negative, whole, fraction, exponent⟩ := n
    cases fraction with
    | none =>
      cases exponent with
      | none =>
        simp only [lastState, wholeState]
        split
        next h => rw [NumeralState.finish, h]
        next => rw [NumeralState.finish, List.reverse_reverse]
      | some e => simp [lastState, NumeralState.finish]
    | some fs => cases exponent <;> simp [lastState, NumeralState.finish]
  cases hvalue : n.value <;> simp [numberToken, hfinish, token, hvalue]

end Numeral

/-- What ends a value inside a container. -/
def closes (c : Option Char) : Bool := c.any fun c => c == ',' || c == ']' || c == '\x7d'

def anything : Option Char → Bool := fun _ => true

lemma closes_cases {c : Option Char} (h : closes c = true) :
    c = some ',' ∨ c = some ']' ∨ c = some '\x7d' := by
  cases c with
  | none => cases h
  | some c => simpa [closes, or_assoc] using h

/-- A numeral ends before a character that ends a value. -/
lemma Numeral.lastState_step (n : Numeral) {c : Char} (h : closes (some c) = true) :
    n.lastState.step c = .ok none := by
  have hc : c.isDigit = false ∧ c ≠ '.' ∧ isMark c = false := by
    rcases closes_cases h with h | h | h <;> cases h <;> decide
  unfold lastState
  split
  · unfold wholeState
    split <;> simp [NumeralState.step, hc]
  · simp [NumeralState.step, hc]
  · simp [NumeralState.step, hc]

/-- Characters take the reading of a number from one state to another. -/
def Reaches (state : NumeralState) (cs : List Char) (next : NumeralState) : Prop :=
  ∀ seen, cs.foldl lexStep (seen, .numeral state) = (seen, .numeral next)

lemma Reaches.cons {state next last : NumeralState} {c : Char} {cs : List Char}
    (h : state.step c = .ok (some next)) (h' : Reaches next cs last) :
    Reaches state (c :: cs) last := by
  intro seen
  have hstep : lexStep (seen, .numeral state) c = (seen, .numeral next) := by
    simp [lexStep, LexState.step, h]
  rw [List.foldl_cons, hstep, h']

lemma Reaches.append {state next last : NumeralState} {cs ds : List Char}
    (h : Reaches state cs next) (h' : Reaches next ds last) : Reaches state (cs ++ ds) last := by
  intro seen
  rw [List.foldl_append, h, h']

/-- Digits are gathered by a state that takes them one by one. -/
lemma reaches_digits (state : List Char → NumeralState)
    (h : ∀ c ds, c.isDigit = true → (state ds).step c = .ok (some (state (c :: ds))))
    {cs : List Char} (hcs : cs.all Char.isDigit = true) (ds : List Char) :
    Reaches (state ds) cs (state (cs.reverse ++ ds)) := by
  induction cs generalizing ds with
  | nil => exact fun _ => rfl
  | cons c cs ih =>
    rw [List.all_cons, Bool.and_eq_true] at hcs
    rw [List.reverse_cons, List.append_assoc]
    exact .cons (h c ds hcs.1) (ih hcs.2 (c :: ds))

lemma reaches_fraction {negative : Bool} {w fs : List Char} (hne : fs ≠ [])
    (hfs : fs.all Char.isDigit = true) :
    Reaches (.point negative w) fs (.fraction negative w fs.reverse) := by
  obtain ⟨c, fs, rfl⟩ := List.exists_cons_of_ne_nil hne
  rw [List.all_cons, Bool.and_eq_true] at hfs
  rw [List.reverse_cons]
  have hfirst : (NumeralState.point negative w).step c = .ok (some (.fraction negative w [c])) := by
    simp [NumeralState.step, hfs.1]
  exact .cons hfirst (reaches_digits (fun ds => .fraction negative w ds)
    (fun c ds hc => by simp [NumeralState.step, hc]) hfs.2 [c])

lemma reaches_exponent {negative down : Bool} {w ds : List Char} {f : Option (List Char)}
    (hne : ds ≠ []) (hds : ds.all Char.isDigit = true) :
    Reaches (.mark negative w f) ((if down then '-' else '+') :: ds)
      (.exponent negative w f down ds.reverse) := by
  obtain ⟨c, ds, rfl⟩ := List.exists_cons_of_ne_nil hne
  rw [List.all_cons, Bool.and_eq_true] at hds
  rw [List.reverse_cons]
  have hsign : (NumeralState.mark negative w f).step (if down then '-' else '+')
      = .ok (some (.sign negative w f down)) := by
    cases down <;> simp [NumeralState.step]
  have hfirst : (NumeralState.sign negative w f down).step c
      = .ok (some (.exponent negative w f down [c])) := by
    simp [NumeralState.step, hds.1]
  exact .cons hsign (.cons hfirst (reaches_digits (fun es => .exponent negative w f down es)
    (fun c ds hc => by simp [NumeralState.step, hc]) hds.2 [c]))

namespace Numeral

lemma foldl_whole (negative : Bool) {whole : List Char} (hne : whole ≠ [])
    (hdigits : whole.all Char.isDigit = true)
    (hleading : whole = ['0'] ∨ whole.head? ≠ some '0') (seen : List Token) :
    ((if negative then ['-'] else []) ++ whole).foldl lexStep (seen, .between)
      = (seen, .numeral (wholeState negative whole)) := by
  obtain ⟨c, cs, rfl⟩ := List.exists_cons_of_ne_nil hne
  rw [List.all_cons, Bool.and_eq_true] at hdigits
  -- A leading zero is all of the whole part.
  by_cases hzero : c :: cs = ['0']
  · cases hzero
    cases negative <;> rfl
  · have hc : c ≠ '0' := by
      rintro rfl
      exact hleading.elim hzero fun h => h rfl
    have hrest := reaches_digits (fun ds => .whole negative ds)
      (fun c ds hc => by simp [NumeralState.step, hc]) hdigits.2 [c] seen
    rw [wholeState, if_neg hzero, List.reverse_cons, ← hrest]
    cases negative with
    | true =>
      have hstep : NumeralState.step .minus c = .ok (some (.whole true [c])) := by
        simp [NumeralState.step, hc, hdigits.1]
      simp [lexStep, LexState.step, LexState.start, isJsonBlank, hstep]
    | false =>
      have hstart : LexState.start c = ([], .numeral (.whole false [c])) := by
        have hblank : isJsonBlank c = false := by
          refine Bool.eq_false_iff.mpr fun hblank => ?_
          simp only [isJsonBlank, Bool.or_eq_true, beq_iff_eq] at hblank
          rcases hblank with ((rfl | rfl) | rfl) | rfl <;> exact absurd hdigits.1 (by decide)
        unfold LexState.start
        rw [hblank, if_neg Bool.false_ne_true]
        split <;> first | exact absurd hdigits.1 (by decide) | exact absurd rfl hc | skip
        rw [if_pos hdigits.1]
      simp [lexStep, LexState.step, hstart]

lemma foldl_chars {n : Numeral} (h : n.IsWritten) (seen : List Token) :
    n.chars.foldl lexStep (seen, .between) = (seen, .numeral n.lastState) := by
  obtain ⟨negative, whole, fraction, exponent⟩ := n
  have hwhole := foldl_whole negative h.whole_ne h.whole h.leading seen
  -- A leading zero is a state of its own, which no digit may follow.
  have hstate : ∀ c next, (NumeralState.whole negative whole.reverse).step c = .ok (some next) →
      c.isDigit = false → (wholeState negative whole).step c = .ok (some next) := by
    intro c next hnext hc
    unfold wholeState
    split
    next hzero =>
      subst hzero
      simpa [NumeralState.step, hc] using hnext
    next => exact hnext
  have hpoint := hstate '.' (.point negative whole.reverse) rfl rfl
  have hmark := hstate 'e' (.mark negative whole.reverse none) rfl rfl
  rw [chars, ← List.append_assoc, List.foldl_append, hwhole]
  cases fraction with
  | none =>
    cases exponent with
    | none => rfl
    | some e =>
      obtain ⟨hne, hds⟩ := h.exponent e.1 e.2 rfl
      exact Reaches.cons hmark (reaches_exponent hne hds) seen
  | some fs =>
    obtain ⟨hne, hfs⟩ := h.fraction fs rfl
    have hfraction := Reaches.cons hpoint (reaches_fraction hne hfs)
    cases exponent with
    | none =>
      simp only [List.append_nil]
      exact hfraction seen
    | some e =>
      obtain ⟨hne', hds⟩ := h.exponent e.1 e.2 rfl
      exact hfraction.append (.cons rfl (reaches_exponent hne' hds)) seen

end Numeral

/-! ### The numerals of numbers -/

def Numeral.ofInt (i : Int) : Numeral := ⟨i < 0, Number.digits i.natAbs, none, none⟩

end Json

lemma Number.digits_leading (n : Nat) :
    digits n = ['0'] ∧ n = 0 ∨ (digits n).head? ≠ some '0' := by
  fun_induction digits n with
  | case1 n h =>
    have hall : ∀ d < 10, d = 0 ∨ digitChar d ≠ '0' := by decide
    rcases hall n h with rfl | hd
    · exact .inl ⟨rfl, rfl⟩
    · exact .inr (by simpa using hd)
  | case2 n h ih =>
    rcases ih with ⟨-, hzero⟩ | hhead
    · omega
    · right
      rwa [List.head?_append_of_ne_nil _ (digits_ne_nil _)]

namespace Json

lemma Numeral.isWritten_ofInt (i : Int) : (ofInt i).IsWritten where
  whole_ne := Number.digits_ne_nil _
  whole := Number.digits_all _
  leading := (Number.digits_leading _).imp And.left id
  fraction _ h := by cases h
  exponent _ _ h := by cases h

lemma Numeral.chars_ofInt (i : Int) : (ofInt i).chars = Number.intChars i := by
  cases i with
  | ofNat k => simp [ofInt, chars, Number.intChars]
  | negSucc k => simp [ofInt, chars, Number.intChars, Int.negSucc_lt_zero]

end Json

namespace Decimal

lemma wholeDigits_leading {d : Decimal} (h : d.coefficient = 0 → d.exponent = 0) :
    d.wholeDigits = ['0'] ∨ d.wholeDigits.head? ≠ some '0' := by
  have hne := Number.digits_ne_nil d.coefficient
  rcases Number.digits_leading d.coefficient with ⟨hdigits, hzero⟩ | hhead
  · left
    simp [wholeDigits, h hzero, hdigits]
  · unfold wholeDigits
    dsimp only
    split_ifs with hwhole hplaces
    · right
      rwa [List.head?_append_of_ne_nil _ hne]
    · right
      rwa [List.head?_take, if_neg (by omega)]
    · exact .inl rfl

lemma fractionDigits_ne_nil (d : Decimal) : d.fractionDigits ≠ [] := by
  have hne := Number.digits_ne_nil d.coefficient
  unfold fractionDigits
  dsimp only
  split_ifs with hwhole hplaces
  · simp
  · intro hnil
    have hlength := congrArg List.length hnil
    rw [List.length_drop, List.length_nil] at hlength
    omega
  · simp [hne]

end Decimal

namespace Binary64

def numeral (x : Binary64) : Json.Numeral :=
  let d := x.shortest
  if d.coefficient == 0 || (-5 ≤ d.leading && d.leading ≤ 15) then
    ⟨x.isNegative, d.wholeDigits, some d.fractionDigits, none⟩
  else
    let ds := Number.digits d.coefficient
    ⟨x.isNegative, ds.take 1, if ds.drop 1 = [] then none else some (ds.drop 1),
      some (d.leading < 0, Number.digits d.leading.natAbs)⟩

lemma chars_numeral {x : Binary64} (h : x.isFinite = true) :
    x.numeral.chars = x.jsonText.toList := by
  have hexponent : ∀ e : Int, NumberLayout.exponentChars 1 e
      = (if e < 0 then '-' else '+') :: Number.digits e.natAbs := by
    intro e
    have hlength := List.length_pos_of_ne_nil (Number.digits_ne_nil e.natAbs)
    simp only [NumberLayout.exponentChars]
    rw [Nat.sub_eq_zero_of_le hlength, List.replicate_zero, List.nil_append]
  have htext : x.jsonText.toList = (if x.isNegative then ['-'] else [])
      ++ NumberLayout.json.chars x.shortest := by
    rw [jsonText, h, Bool.not_true, if_neg Bool.false_ne_true, signed, String.toList_ofList]
    split <;> rfl
  have hlayout : NumberLayout.json.chars x.shortest =
      if x.shortest.coefficient == 0 || (-5 ≤ x.shortest.leading && x.shortest.leading ≤ 15) then
        NumberLayout.positional true x.shortest
      else NumberLayout.json.scientific x.shortest := rfl
  rw [htext, hlayout, numeral]
  dsimp only
  by_cases hplain : (x.shortest.coefficient == 0 ||
      (decide (-5 ≤ x.shortest.leading) && decide (x.shortest.leading ≤ 15))) = true
  · rw [if_pos hplain, if_pos hplain, Json.Numeral.chars, Decimal.positional_true]
    simp
  · rw [if_neg hplain, if_neg hplain, Json.Numeral.chars, NumberLayout.scientific,
      show NumberLayout.json.exponentDigits = 1 from rfl, hexponent,
      show NumberLayout.json.pointZeroBeforeExponent = false from rfl]
    obtain ⟨c, cs, hcs⟩ := List.exists_cons_of_ne_nil (Number.digits_ne_nil x.shortest.coefficient)
    rw [hcs]
    cases cs <;> simp

lemma coefficient_shortest {x : Binary64} (h : x.isFinite = true) (hzero : x.isZero = false) :
    0 < x.shortest.coefficient := by
  obtain ⟨hlow, -⟩ := (rounds_shortest h hzero).bounds h (significand_pos hzero)
  refine Nat.pos_of_ne_zero fun hc => ?_
  rw [Decimal.value, hc, Nat.cast_zero, zero_mul] at hlow
  exact absurd hlow (not_le.mpr (by positivity))

lemma isWritten_numeral {x : Binary64} (h : x.isFinite = true) : x.numeral.IsWritten := by
  -- The decimal of zero has no exponent.
  have hcoefficient : x.shortest.coefficient = 0 → x.shortest.exponent = 0 := by
    intro hc
    cases hzero : x.isZero with
    | true => rw [shortest, hzero, if_pos rfl]
    | false => exact absurd hc (coefficient_shortest h hzero).ne'
  unfold numeral
  dsimp only
  split
  next =>
    refine ⟨Decimal.wholeDigits_ne_nil _, Decimal.wholeDigits_all _,
      Decimal.wholeDigits_leading hcoefficient, ?_, fun _ _ h => by cases h⟩
    rintro fs ⟨⟩
    exact ⟨Decimal.fractionDigits_ne_nil _, Decimal.fractionDigits_all _⟩
  next hlarge =>
    simp only [Bool.or_eq_true, beq_iff_eq, not_or] at hlarge
    have hall := List.all_eq_true.mp (Number.digits_all x.shortest.coefficient)
    have hhead := (Number.digits_leading x.shortest.coefficient).resolve_left
      fun hzero => hlarge.1 hzero.2
    have hne := Number.digits_ne_nil x.shortest.coefficient
    refine ⟨by simp [hne], ?_, .inr (by rwa [List.head?_take]), ?_, ?_⟩
    · exact List.all_eq_true.mpr fun c hc => hall c (List.mem_of_mem_take hc)
    · intro fs hfs
      split at hfs
      · cases hfs
      · next hrest =>
        cases hfs
        exact ⟨hrest, List.all_eq_true.mpr fun c hc => hall c (List.mem_of_mem_drop hc)⟩
    · rintro down ds ⟨⟩
      exact ⟨Number.digits_ne_nil _, Number.digits_all _⟩

end Binary64

end RowPolicy
