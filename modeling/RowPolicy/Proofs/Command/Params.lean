import Mathlib
import RowPolicy.Command.Params
import RowPolicy.Proofs.Json.Decoding

/-!
# Parameters on the command line

A parameter ends its column at the first `=`. What follows is a JSON scalar, or a text if it is no
JSON at all. So any row of scalars can be given by the compact texts of its values, and every other
list of parameters is read or refused by what its parts are.
-/

namespace RowPolicy

namespace Json

/-! ### Scalars -/

/-- A value that a cell of a row can have, other than a real. -/
inductive IsCell : Json → Prop
  | null : IsCell .null
  | bool (b : Bool) : IsCell (.bool b)
  | int {i : Int} (hlow : Number.minInt64 ≤ i) (hhigh : i ≤ Number.maxUInt64) : IsCell (.int i)
  | str (s : String) : IsCell (.str s)

lemma Numeral.value_ofInt {i : Int} (hlow : Number.minInt64 ≤ i) (hhigh : i ≤ Number.maxUInt64) :
    (ofInt i).value = .ok (.int i) := by
  have hint : (ofInt i).intValue? = some i := by
    simp only [ofInt, intValue?, Number.ofDigits_digits]
    unfold Number.minInt64 at *
    by_cases hneg : i < 0
    · simp only [hneg, decide_true, if_true]
      rw [if_pos (by rw [Bool.and_eq_true, bne_iff_ne, decide_eq_true_eq]; omega),
        Option.some.injEq]
      omega
    · simp only [hneg, decide_false, Bool.false_eq_true, if_false]
      rw [if_pos (by omega), Option.some.injEq]
      omega
  rw [value, hint]

lemma lex_numeral {n : Numeral} (h : n.IsWritten) : lex (String.ofList n.chars) = [n.token] := by
  rw [lex, String.toList_ofList, Numeral.foldl_chars h]
  simp [LexState.finish, n.numberToken_lastState]

lemma lex_cell {j : Json} (h : j.IsCell) : lex j.compact = j.tokens := by
  cases h with
  | null => rfl
  | bool b => cases b <;> rfl
  | int hlow hhigh =>
    rw [compact, chars, ← Numeral.chars_ofInt, lex_numeral (Numeral.isWritten_ofInt _), tokens]
  | str s =>
    have hread := (lexes_quotedChars s).sound [] [] rfl rfl
    rw [List.append_nil, List.append_nil, List.foldl_nil] at hread
    rw [lex, compact, chars, String.toList_ofList, hread, tokens]
    simp [LexState.finish]

/-- A value of a cell is read back from its text. -/
lemma parse_compact {j : Json} (h : j.IsCell) : parse j.compact = .ok j := by
  rw [parse, draft, lex_cell h]
  cases h with
  | null => rfl
  | bool b => rfl
  | int hlow hhigh =>
    rw [tokens, Numeral.token, Numeral.value_ofInt hlow hhigh]
    rfl
  | str s => rfl

/-! ### Rows -/

namespace Fields

variable {key c : String} {value : Json} {fields row : Fields}

lemma keys_put (key : String) (value : Json) (fields : Fields) :
    (fields.put key value).map Prod.fst =
      if key ∈ fields.map Prod.fst then fields.map Prod.fst else fields.map Prod.fst ++ [key] := by
  induction fields with
  | nil => simp [put]
  | cons f rest ih =>
    obtain ⟨k, v⟩ := f
    by_cases hkey : k = key
    · subst hkey
      simp [put]
    · rw [put, if_neg (by simpa using hkey), List.map_cons, ih, List.map_cons]
      by_cases hmem : key ∈ rest.map Prod.fst
      · rw [if_pos hmem, if_pos (List.mem_cons_of_mem _ hmem)]
      · rw [if_neg hmem, if_neg (by simpa [Ne.symm hkey] using hmem), List.cons_append]

lemma lookup_cons (f : String × Json) (rest : Fields) (c : String) :
    List.lookup c (f :: rest) = if c = f.1 then some f.2 else rest.lookup c := by
  obtain ⟨k, v⟩ := f
  by_cases hc : c = k
  · simp [hc]
  · rw [if_neg hc, List.lookup_cons, beq_eq_false_iff_ne.mpr hc]

lemma lookup_put (key c : String) (value : Json) (fields : Fields) :
    (fields.put key value).lookup c = if c = key then some value else fields.lookup c := by
  induction fields with
  | nil => rw [put, lookup_cons]
  | cons f rest ih =>
    obtain ⟨k, v⟩ := f
    by_cases hkey : k = key
    · subst hkey
      rw [put, if_pos (beq_self_eq_true k), lookup_cons, lookup_cons]
      by_cases hc : c = k <;> simp [hc]
    · rw [put, if_neg (by simpa using hkey), lookup_cons, lookup_cons, ih]
      by_cases hc : c = k
      · subst hc
        simp [hkey]
      · simp [hc]

/-- A row is collected from columns and values in order: each column stands where it came first and
has the value that came last. -/
structure Collects (row fields : Fields) : Prop where
  columns : fields.map Prod.fst = (row.map Prod.fst).eraseDups
  values : ∀ c, fields.lookup c = row.reverse.lookup c

lemma collects_merge (row : Fields) : Collects row (merge row) := by
  induction row using List.reverseRecOn with
  | nil => exact ⟨rfl, fun c => rfl⟩
  | append_singleton row f ih =>
    have hmerge : merge (row ++ [f]) = (merge row).put f.1 f.2 := by
      rw [merge, List.foldl_append]
      rfl
    constructor
    · rw [hmerge, keys_put, ih.columns, List.map_append, List.eraseDups_append]
      by_cases hmem : f.1 ∈ row.map Prod.fst
      · rw [if_pos (List.mem_eraseDups.mpr hmem)]
        simp [List.removeAll, hmem]
      · rw [if_neg (fun h => hmem (List.mem_eraseDups.mp h))]
        simp [List.removeAll, hmem, List.eraseDups_cons]
    · intro c
      rw [hmerge, lookup_put, ih.values, List.reverse_append, List.reverse_singleton,
        List.singleton_append, lookup_cons]

end Fields

end Json

namespace Command

open Json

/-! ### Columns -/

/-- A name that stays as it is when the parameter that it is written in is split and trimmed. -/
structure IsColumn (c : String) : Prop where
  nonempty : c ≠ ""
  unsplit : '=' ∉ c.toList
  head : ∀ first ∈ c.toList.head?, Text.isBlank first = false
  last : ∀ final ∈ c.toList.getLast?, Text.isBlank final = false

lemma IsColumn.trim_eq {c : String} (h : IsColumn c) : Text.trim c = c := by
  have hkept : ∀ cs : List Char, (∀ first ∈ cs.head?, Text.isBlank first = false) →
      cs.dropWhile Text.isBlank = cs := by
    intro cs hcs
    cases cs with
    | nil => rfl
    | cons first rest => exact List.dropWhile_cons_of_neg (by simp [hcs first rfl])
  have hend := hkept c.toList.reverse (by rw [List.head?_reverse]; exact h.last)
  rw [Text.trim, hkept c.toList h.head, Text.dropEndWhile, hend, List.reverse_reverse,
    String.ofList_toList]

lemma forall_mem_dropWhile {p : Char → Bool} (cs : List Char) :
    (∀ c ∈ cs.dropWhile p, p c = true) ↔ ∀ c ∈ cs, p c = true := by
  induction cs with
  | nil => rfl
  | cons c cs ih =>
    by_cases hc : p c = true
    · rw [List.dropWhile_cons_of_pos hc, ih, List.forall_mem_cons]
      exact ⟨fun h => ⟨hc, h⟩, And.right⟩
    · rw [List.dropWhile_cons_of_neg hc]

lemma trim_isEmpty (s : String) :
    (Text.trim s).isEmpty = true ↔ ∀ c ∈ s.toList, Text.isBlank c = true := by
  rw [String.isEmpty_iff, ← String.toList_inj, Text.trim, String.toList_ofList, Text.dropEndWhile,
    String.toList_empty, List.reverse_eq_nil_iff, List.dropWhile_eq_nil_iff]
  simp only [List.mem_reverse]
  exact forall_mem_dropWhile s.toList

/-! ### One parameter -/

/-- A text is split at its first `=`. -/
structure IsSplit (pair : String) (before after : List Char) : Prop where
  eq : pair.toList = before ++ '=' :: after
  first : '=' ∉ before

/-- The value that a text gives: the scalar that it is in JSON, or itself if it is no JSON. -/
inductive Gives (text : String) : Json → Prop
  | scalar {j : Json} (h : parse text = .ok j) (hj : j.isScalar = true) : Gives text j
  | word {e : JsonFault} (h : parse text = .error e) : Gives text (.str text)

def Reads (pair : String) (field : String × Json) : Prop :=
  ∃ before after, IsSplit pair before after ∧ field.1 = Text.trim (String.ofList before) ∧
    Gives (String.ofList after) field.2

/-- A parameter without `=`, without a column, or with an array or an object as its value. -/
def IsRefused (pair : String) : Prop :=
  '=' ∉ pair.toList ∨ ∃ before after, IsSplit pair before after ∧
    ((∀ c ∈ before, Text.isBlank c = true) ∨
      ∃ j, parse (String.ofList after) = .ok j ∧ j.isScalar = false)

variable {pair text : String} {before after : List Char} {j : Json}

lemma splitPair_of_isSplit (h : IsSplit pair before after) :
    splitPair pair.toList = some (before, after) := by
  have hbefore : ∀ c ∈ before, (c != '=') = true := fun c hc => by
    simpa using fun heq : c = '=' => h.first (heq ▸ hc)
  rw [splitPair, h.eq, List.dropWhile_append_of_pos hbefore, List.takeWhile_append_of_pos hbefore]
  simp

lemma splitPair_eq_none (h : '=' ∉ pair.toList) : splitPair pair.toList = none := by
  have hdrop : pair.toList.dropWhile (· != '=') = [] :=
    List.dropWhile_eq_nil_iff.mpr fun c hc => by
      simpa using fun heq : c = '=' => h (heq ▸ hc)
  rw [splitPair, hdrop]

lemma exists_isSplit (h : '=' ∈ pair.toList) : ∃ before after, IsSplit pair before after := by
  obtain ⟨before, after, heq, hfirst⟩ := List.eq_append_cons_of_mem h
  exact ⟨before, after, heq, hfirst⟩

lemma paramValue_eq_ok : paramValue pair text = .ok j ↔ Gives text j := by
  rw [paramValue.eq_def]
  constructor
  · intro h
    split at h
    next value hparse =>
      obtain ⟨hscalar, rfl⟩ := ite_ok_eq_ok.mp h
      exact .scalar hparse hscalar
    next e hparse =>
      cases h
      exact .word hparse
  · intro h
    cases h with
    | scalar hparse hscalar => rw [hparse]; exact if_pos hscalar
    | word hparse => rw [hparse]

lemma parseParam_of_isSplit (h : IsSplit pair before after) :
    parseParam pair = if (Text.trim (String.ofList before)).isEmpty then .error (.noColumn pair)
      else paramValue pair (String.ofList after) >>= fun j =>
        .ok (Text.trim (String.ofList before), j) := by
  unfold parseParam
  rw [splitPair_of_isSplit h]
  dsimp only
  split <;> rfl

lemma parseParam_eq_ok {field : String × Json} (h : parseParam pair = .ok field) :
    Reads pair field := by
  by_cases hmem : '=' ∈ pair.toList
  · obtain ⟨before, after, hsplit⟩ := exists_isSplit hmem
    rw [parseParam_of_isSplit hsplit, ite_error_eq_ok] at h
    obtain ⟨j, hj, hfield⟩ := bind_eq_ok.mp h.2
    cases hfield
    exact ⟨before, after, hsplit, rfl, paramValue_eq_ok.mp hj⟩
  · rw [parseParam, splitPair_eq_none hmem] at h
    cases h

lemma isRefused_iff (h : IsSplit pair before after) :
    IsRefused pair ↔ (∀ c ∈ before, Text.isBlank c = true) ∨
      ∃ j, parse (String.ofList after) = .ok j ∧ j.isScalar = false := by
  constructor
  · rintro (hnone | ⟨before', after', h', hrefused⟩)
    · exact absurd (by simp [h.eq]) hnone
    · cases (splitPair_of_isSplit h).symm.trans (splitPair_of_isSplit h')
      exact hrefused
  · exact fun hrefused => .inr ⟨before, after, h, hrefused⟩

lemma exists_gives : (∃ j, Gives text j) ↔ ¬ ∃ j, parse text = .ok j ∧ j.isScalar = false := by
  cases hparse : parse text with
  | error e => exact iff_of_true ⟨_, .word hparse⟩ fun ⟨_, h, _⟩ => nomatch h
  | ok j =>
    constructor
    · rintro ⟨_, hgives⟩ ⟨j', hj', hrefused⟩
      cases hj'
      cases hgives with
      | scalar h hscalar =>
        cases hparse.symm.trans h
        exact Bool.false_ne_true (hrefused.symm.trans hscalar)
      | word h => cases hparse.symm.trans h
    · intro hscalar
      refine ⟨j, .scalar hparse (Bool.eq_true_of_not_eq_false fun h => hscalar ⟨j, rfl, h⟩)⟩

/-- A parameter is read unless there is a reason to refuse it. -/
lemma exists_parseParam : (∃ field, parseParam pair = .ok field) ↔ ¬ IsRefused pair := by
  by_cases hmem : '=' ∈ pair.toList
  · obtain ⟨before, after, hsplit⟩ := exists_isSplit hmem
    rw [isRefused_iff hsplit, not_or, ← exists_gives, parseParam_of_isSplit hsplit]
    simp only [ite_error_eq_ok, trim_isEmpty, String.toList_ofList]
    constructor
    · rintro ⟨field, hcolumn, hfield⟩
      obtain ⟨j, hj, -⟩ := bind_eq_ok.mp hfield
      exact ⟨hcolumn, j, paramValue_eq_ok.mp hj⟩
    · rintro ⟨hcolumn, j, hj⟩
      exact ⟨_, hcolumn, bind_eq_ok.mpr ⟨j, paramValue_eq_ok.mpr hj, rfl⟩⟩
  · rw [parseParam, splitPair_eq_none hmem]
    exact iff_of_false (fun ⟨_, h⟩ => nomatch h) (not_not_intro (.inl hmem))

/-- A value of a cell is read back from the parameter that its column is given with. -/
lemma parseParam_compact {c : String} (hc : IsColumn c) (hj : j.IsCell) :
    parseParam (c ++ "=" ++ j.compact) = .ok (c, j) := by
  have hsplit : IsSplit (c ++ "=" ++ j.compact) c.toList j.chars :=
    ⟨by simp [compact], hc.unsplit⟩
  have hscalar : j.isScalar = true := by cases hj <;> rfl
  have hvalue : paramValue (c ++ "=" ++ j.compact) (String.ofList j.chars) = .ok j :=
    paramValue_eq_ok.mpr (.scalar (parse_compact hj) hscalar)
  rw [parseParam_of_isSplit hsplit, String.ofList_toList, hc.trim_eq, hvalue,
    if_neg (by simpa using hc.nonempty), ok_bind]

/-! ### Lists of parameters -/

variable {pairs : List String} {row fields : Fields}

lemma mapM_parseParam (h : pairs.mapM parseParam = .ok row) : List.Forall₂ Reads pairs row := by
  induction pairs generalizing row with
  | nil =>
    cases h
    exact .nil
  | cons pair pairs ih =>
    rw [List.mapM_cons] at h
    obtain ⟨field, hfield, h⟩ := bind_eq_ok.mp h
    obtain ⟨rest, hrest, h⟩ := bind_eq_ok.mp h
    cases h
    exact .cons (parseParam_eq_ok hfield) (ih hrest)

lemma exists_mapM_parseParam :
    (∃ row, pairs.mapM parseParam = .ok row) ↔ ∀ pair ∈ pairs, ¬ IsRefused pair := by
  constructor
  · rintro ⟨row, hrow⟩ pair hpair
    exact exists_parseParam.mp (of_mapM_eq_ok hrow pair hpair)
  · intro h
    induction pairs with
    | nil => exact ⟨[], rfl⟩
    | cons pair pairs ih =>
      rw [List.forall_mem_cons] at h
      obtain ⟨first, hfirst⟩ := exists_parseParam.mpr h.1
      obtain ⟨rest, hrest⟩ := ih h.2
      exact ⟨first :: rest, by rw [List.mapM_cons, hfirst, hrest]; rfl⟩

/-- Any row of scalars can be given on the command line: its columns and the compact texts of its
values are read as the row. A list of parameters is refused if and only if one of them has no `=`,
no column or no scalar; otherwise each gives its scalar or, if it is no JSON, its text. -/
theorem parseParams_reads_rows :
    (∀ row : Fields, (∀ f ∈ row, IsColumn f.1 ∧ f.2.IsCell) →
      ∃ fields, parseParams (row.map fun f => f.1 ++ "=" ++ f.2.compact) = .ok fields ∧
        Fields.Collects row fields) ∧
    ∀ pairs : List String,
      ((∃ e, parseParams pairs = .error e) ↔ ∃ pair ∈ pairs, IsRefused pair) ∧
      ∀ fields, parseParams pairs = .ok fields →
        ∃ row, List.Forall₂ Reads pairs row ∧ Fields.Collects row fields := by
  refine ⟨fun row hrow => ?_, fun pairs => ⟨?_, fun fields hfields => ?_⟩⟩
  · have hread : (row.map fun f => f.1 ++ "=" ++ f.2.compact).mapM parseParam = .ok row := by
      rw [List.mapM_map]
      refine (mapM_eq_ok (g := fun f => f) fun f hf => ?_).trans (by rw [List.map_id'])
      exact parseParam_compact (hrow f hf).1 (hrow f hf).2
    exact ⟨_, by rw [parseParams, hread]; rfl, Fields.collects_merge row⟩
  · have hok : (∃ row, pairs.mapM parseParam = .ok row) ↔ _ := exists_mapM_parseParam
    rw [parseParams]
    cases hrow : pairs.mapM parseParam with
    | ok row =>
      have hnone := hok.mp ⟨row, hrow⟩
      exact iff_of_false (fun ⟨_, h⟩ => nomatch h) fun ⟨pair, hpair, h⟩ => hnone pair hpair h
    | error e =>
      refine iff_of_true ⟨e, rfl⟩ ?_
      by_contra hnone
      push Not at hnone
      obtain ⟨row, hrow'⟩ := hok.mpr hnone
      cases hrow.symm.trans hrow'
  · obtain ⟨row, hrow, rfl⟩ := map_eq_ok.mp hfields
    exact ⟨row, mapM_parseParam hrow, Fields.collects_merge row⟩

/-- A column that is given twice, a text with `=` and quotes, and the least integer; and a parameter
whose value is cut off. -/
theorem parseParams_reads_repeated :
    let row : Fields :=
      [("a b", .str "x=\"y\""), ("n", .int (-9223372036854775808)), ("a b", .null)]
    (∀ f ∈ row, IsColumn f.1 ∧ f.2.IsCell) ∧
    (∃ fields, parseParams (row.map fun f => f.1 ++ "=" ++ f.2.compact) = .ok fields ∧
      Fields.Collects row fields) ∧
    parseParams [" c =[1=2"] = .ok [("c", .str "[1=2")] ∧
    ∃ row, List.Forall₂ Reads [" c =[1=2"] row ∧ Fields.Collects row [("c", .str "[1=2")] := by
  intro row
  have hrow : ∀ f ∈ row, IsColumn f.1 ∧ f.2.IsCell := by
    intro f hf
    simp only [row, List.mem_cons, List.not_mem_nil, or_false] at hf
    obtain rfl | rfl | rfl := hf
    · exact ⟨⟨by decide, by decide, by simp; decide, by simp; decide⟩, .str _⟩
    · exact ⟨⟨by decide, by decide, by simp; decide, by simp; decide⟩, .int (by decide) (by decide)⟩
    · exact ⟨⟨by decide, by decide, by simp; decide, by simp; decide⟩, .null⟩
  have hcut : parseParams [" c =[1=2"] = .ok [("c", .str "[1=2")] := by cbv
  obtain ⟨hrows, hpairs⟩ := parseParams_reads_rows
  exact ⟨hrow, hrows row hrow, hcut, (hpairs _).2 _ hcut⟩

end Command

end RowPolicy
