import RowPolicy.Proofs.Json.Numerals

/-!
# Tokens of printed values

The compact text of a value is read as the tokens of the value. A number that cannot be read ends
the tokens of its text.
-/

namespace RowPolicy.Json

def Token.isSound : Token → Bool
  | .malformed _ _ => false
  | _ => true

/-! ### Values -/

mutual

def tokens : Json → List Token
  | .null => [.null]
  | .bool b => [.bool b]
  | .int i => [(Numeral.ofInt i).token]
  | .real x => [if x.isFinite then x.numeral.token else .null]
  | .str s => [.str s]
  | .arr items => .openArr :: (itemsTokens items ++ [.closeArr])
  | .obj fields => .openObj :: (fieldsTokens fields ++ [.closeObj])

def itemsTokens : List Json → List Token
  | [] => []
  | j :: rest => tokens j ++ moreItemsTokens rest

/-- The tokens of further items, each after a comma. -/
def moreItemsTokens : List Json → List Token
  | [] => []
  | j :: rest => .comma :: (tokens j ++ moreItemsTokens rest)

def fieldsTokens : List (String × Json) → List Token
  | [] => []
  | (k, j) :: rest => .str k :: .colon :: (tokens j ++ moreFieldsTokens rest)

/-- The tokens of further fields, each after a comma. -/
def moreFieldsTokens : List (String × Json) → List Token
  | [] => []
  | (k, j) :: rest => .comma :: .str k :: .colon :: (tokens j ++ moreFieldsTokens rest)

end

/-! ### Pieces of text -/

/-- A text is read as tokens, whatever follows it, if only the next character may stand there. If
one of the tokens is malformed, it ends the tokens of the whole text. -/
structure Lexes (cs : List Char) (ts : List Token) (next : Option Char → Bool) : Prop where
  sound : ∀ seen rest, next rest.head? = true → ts.all Token.isSound = true →
    (cs ++ rest).foldl lexStep (seen, .between) = rest.foldl lexStep (ts.reverse ++ seen, .between)
  broken : ∀ seen rest, next rest.head? = true → ts.all Token.isSound = false →
    ∃ us, us.all Token.isSound = false ∧
      (cs ++ rest).foldl lexStep (seen, .between) = (us, .broken)

namespace Lexes

variable {cs ds : List Char} {ts us : List Token} {p q : Option Char → Bool}

lemma of_foldl (hsound : ts.all Token.isSound = true)
    (h : ∀ seen, cs.foldl lexStep (seen, .between) = (ts.reverse ++ seen, .between)) :
    Lexes cs ts anything where
  sound seen rest _ _ := by rw [List.foldl_append, h]
  broken _ _ _ hbroken := by rw [hsound] at hbroken; cases hbroken

lemma append (h : Lexes cs ts p) (h' : Lexes ds us q)
    (hmeet : ∀ rest, q rest.head? = true → p (ds ++ rest).head? = true) :
    Lexes (cs ++ ds) (ts ++ us) q where
  sound seen rest hrest hsound := by
    rw [List.all_append, Bool.and_eq_true] at hsound
    rw [List.append_assoc, h.sound seen _ (hmeet rest hrest) hsound.1,
      h'.sound _ rest hrest hsound.2, List.reverse_append, List.append_assoc]
  broken seen rest hrest hbroken := by
    rw [List.append_assoc]
    cases hts : ts.all Token.isSound with
    | false => exact h.broken seen _ (hmeet rest hrest) hts
    | true =>
      rw [List.all_append, hts, Bool.true_and] at hbroken
      rw [h.sound seen _ (hmeet rest hrest) hts]
      exact h'.broken _ rest hrest hbroken

lemma mono (h : Lexes cs ts p) (hq : ∀ c, q c = true → p c = true) : Lexes cs ts q where
  sound seen rest hrest := h.sound seen rest (hq _ hrest)
  broken seen rest hrest := h.broken seen rest (hq _ hrest)

lemma append_any (h : Lexes cs ts anything) (h' : Lexes ds us q) :
    Lexes (cs ++ ds) (ts ++ us) q :=
  h.append h' fun _ _ => rfl

end Lexes

lemma lexes_nil : Lexes [] [] closes where
  sound _ _ _ _ := rfl
  broken _ _ _ h := by cases h

lemma foldl_broken (seen : List Token) (cs : List Char) :
    cs.foldl lexStep (seen, .broken) = (seen, .broken) := by
  induction cs with
  | nil => rfl
  | cons c cs ih => exact ih

/-! ### Quoted texts -/

lemma lexStep_quoted {inner next : QuoteState} {c : Char} {d : Option Char}
    (h : inner.step c = .ok (d, next)) (hc : c ≠ '"') (seen : List Token) (done : List Char) :
    lexStep (seen, .quoted done inner) c = (seen, .quoted (d.toList ++ done) next) := by
  have hquote : (c == '"') = false := beq_eq_false_iff_ne.mpr hc
  cases inner <;> cases d <;> simp [lexStep, LexState.step, hquote, h]

lemma foldl_escapeChar (c : Char) (seen : List Token) (done : List Char) :
    (escapeChar c).foldl lexStep (seen, .quoted done .plain) =
      (seen, .quoted (c :: done) .plain) := by
  unfold escapeChar
  split_ifs with hquote hslash hcontrol hn hr ht hb hf
  · rw [eq_of_beq hquote]; rfl
  · rw [eq_of_beq hslash]; rfl
  · rw [eq_of_beq hn]; rfl
  · rw [eq_of_beq hr]; rfl
  · rw [eq_of_beq ht]; rfl
  · have hc : c = '\x08' := by rw [← Char.ofNat_toNat c, eq_of_beq hb]
    rw [hc]; rfl
  · have hc : c = '\x0c' := by rw [← Char.ofNat_toNat c, eq_of_beq hf]
    rw [hc]; rfl
  · -- A control character is written as the hexadecimal digits of its number.
    have hhex : ∀ d < 16, hexValue? (hexDigit d) = some d ∧ hexDigit d ≠ '"' := by decide
    obtain ⟨hhigh, hhigh'⟩ := hhex (c.toNat / 16) (by omega)
    obtain ⟨hlow, hlow'⟩ := hhex (c.toNat % 16) (by omega)
    have hvalue : c.toNat / 16 * 16 + c.toNat % 16 = c.toNat := Nat.div_add_mod' _ _
    have hfirst : (QuoteState.hex none 2 0).step (hexDigit (c.toNat / 16))
        = .ok (none, .hex none 3 (c.toNat / 16)) := by
      simp [QuoteState.step, hhigh]
    have hsecond : (QuoteState.hex none 3 (c.toNat / 16)).step (hexDigit (c.toNat % 16))
        = .ok (some c, .plain) := by
      have hlone : ¬ (0xDC00 ≤ c.toNat ∧ c.toNat ≤ 0xDFFF) ∧
          ¬ (0xD800 ≤ c.toNat ∧ c.toNat ≤ 0xDBFF) := by omega
      simp [QuoteState.step, hlow, finishHex, hvalue, hlone]
    have hstart : ['\\', 'u', '0', '0'].foldl lexStep (seen, .quoted done .plain)
        = (seen, .quoted done (.hex none 2 0)) := rfl
    rw [show ['\\', 'u', '0', '0', hexDigit (c.toNat / 16), hexDigit (c.toNat % 16)]
      = ['\\', 'u', '0', '0'] ++ [hexDigit (c.toNat / 16), hexDigit (c.toNat % 16)] from rfl,
      List.foldl_append, hstart, List.foldl_cons, lexStep_quoted hfirst hhigh', List.foldl_cons,
      lexStep_quoted hsecond hlow']
    rfl
  · have hstep : QuoteState.plain.step c = .ok (some c, .plain) := by
      simp [QuoteState.step, hslash, hcontrol]
    exact lexStep_quoted hstep (by simpa using hquote) seen done

lemma foldl_escaped (cs : List Char) (seen : List Token) (done : List Char) :
    (cs.flatMap escapeChar).foldl lexStep (seen, .quoted done .plain)
      = (seen, .quoted (cs.reverse ++ done) .plain) := by
  induction cs generalizing done with
  | nil => rfl
  | cons c cs ih =>
    rw [List.flatMap_cons, List.foldl_append, foldl_escapeChar, ih, List.reverse_cons,
      List.append_assoc]
    rfl

lemma lexes_quotedChars (s : String) : Lexes (quotedChars s) [.str s] anything := by
  refine .of_foldl rfl fun seen => ?_
  have hopen : lexStep (seen, .between) '"' = (seen, .quoted [] .plain) := rfl
  have hclose : lexStep (seen, .quoted s.toList.reverse .plain) '"'
      = (.str (String.ofList s.toList.reverse.reverse) :: seen, .between) := rfl
  rw [quotedChars, List.foldl_cons, hopen, List.foldl_append, foldl_escaped, List.append_nil,
    List.foldl_cons, hclose, List.reverse_reverse, String.ofList_toList]
  rfl

/-! ### Numbers -/

lemma lexes_numeral {n : Numeral} (h : n.IsWritten) : Lexes n.chars [n.token] closes := by
  -- The character behind a numeral ends it and is read on its own.
  have hstep : ∀ seen c, closes (some c) = true →
      lexStep (seen, .numeral n.lastState) c = match n.token with
        | .malformed q e => (.malformed q e :: seen, .broken)
        | token => lexStep (token :: seen, .between) c := by
    intro seen c hc
    have hend := n.lastState_step hc
    have htoken := n.numberToken_lastState
    unfold Numeral.token at htoken ⊢
    cases hvalue : n.value with
    | ok j | error e =>
      rw [hvalue] at htoken
      simp [lexStep, LexState.step, hend, htoken]
  constructor
  · intro seen rest hrest hsound
    obtain ⟨c, rest, rfl⟩ : ∃ c rest', rest = c :: rest' := by
      cases rest with
      | nil => cases hrest
      | cons c rest => exact ⟨c, rest, rfl⟩
    rw [List.foldl_append, Numeral.foldl_chars h, List.foldl_cons, hstep seen c hrest]
    unfold Numeral.token at hsound ⊢
    cases hvalue : n.value with
    | ok j => rfl
    | error e =>
      rw [hvalue] at hsound
      cases hsound
  · intro seen rest hrest hbroken
    obtain ⟨c, rest, rfl⟩ : ∃ c rest', rest = c :: rest' := by
      cases rest with
      | nil => cases hrest
      | cons c rest => exact ⟨c, rest, rfl⟩
    rw [List.foldl_append, Numeral.foldl_chars h, List.foldl_cons, hstep seen c hrest]
    unfold Numeral.token at hbroken ⊢
    cases hvalue : n.value with
    | ok j =>
      rw [hvalue] at hbroken
      cases hbroken
    | error e => exact ⟨_, rfl, foldl_broken _ _⟩

/-! ### Whole values -/

lemma lexes_mark {c : Char} {t : Token} (hsound : t.isSound = true)
    (h : LexState.start c = ([t], .between)) : Lexes [c] [t] anything :=
  .of_foldl (by simp [hsound]) fun seen => by simp [lexStep, LexState.step, h]

lemma lexes_null : Lexes "null".toList [.null] anything := .of_foldl rfl fun _ => rfl

lemma closes_moreItems {items : List Json} {rest : List Char} (h : closes rest.head? = true) :
    closes (moreItemsChars items ++ rest).head? = true := by
  cases items with
  | nil => exact h
  | cons j items => rfl

lemma closes_moreFields {fields : List (String × Json)} {rest : List Char}
    (h : closes rest.head? = true) : closes (moreFieldsChars fields ++ rest).head? = true := by
  cases fields with
  | nil => exact h
  | cons field fields => rfl

mutual

lemma lexes_chars (j : Json) : Lexes j.chars j.tokens closes := by
  have hany : ∀ {cs ts}, Lexes cs ts anything → Lexes cs ts closes := fun h => h.mono fun _ _ => rfl
  match j with
  | .null => exact hany lexes_null
  | .bool true => exact hany (.of_foldl rfl fun _ => rfl)
  | .bool false => exact hany (.of_foldl rfl fun _ => rfl)
  | .int i =>
    rw [chars, tokens, ← Numeral.chars_ofInt]
    exact lexes_numeral (Numeral.isWritten_ofInt i)
  | .real x =>
    rw [chars, tokens, realChars]
    split
    next h =>
      rw [← Binary64.chars_numeral h]
      exact lexes_numeral (Binary64.isWritten_numeral h)
    next => exact hany lexes_null
  | .str s => exact hany (lexes_quotedChars s)
  | .arr items =>
    have hopen : Lexes ['['] [.openArr] anything := lexes_mark rfl rfl
    have hclose : Lexes [']'] [.closeArr] anything := lexes_mark rfl rfl
    rw [chars, tokens]
    exact hany (hopen.append_any ((lexes_items items).append hclose fun _ _ => rfl))
  | .obj fields => exact hany (lexes_object fields)

lemma lexes_object (fields : List (String × Json)) :
    Lexes (Json.obj fields).chars (Json.obj fields).tokens anything := by
  have hopen : Lexes ['\x7b'] [.openObj] anything := lexes_mark rfl rfl
  have hclose : Lexes ['\x7d'] [.closeObj] anything := lexes_mark rfl rfl
  rw [chars, tokens]
  exact hopen.append_any ((lexes_fields fields).append hclose fun _ _ => rfl)

lemma lexes_items (items : List Json) : Lexes (itemsChars items) (itemsTokens items) closes := by
  match items with
  | [] => exact lexes_nil
  | j :: rest =>
    rw [itemsChars, itemsTokens]
    exact (lexes_chars j).append (lexes_moreItems rest) fun _ => closes_moreItems

lemma lexes_moreItems (items : List Json) :
    Lexes (moreItemsChars items) (moreItemsTokens items) closes := by
  match items with
  | [] => exact lexes_nil
  | j :: rest =>
    have hcomma : Lexes [','] [.comma] anything := lexes_mark rfl rfl
    rw [moreItemsChars, moreItemsTokens]
    exact hcomma.append_any
      ((lexes_chars j).append (lexes_moreItems rest) fun _ => closes_moreItems)

lemma lexes_fields (fields : List (String × Json)) :
    Lexes (fieldsChars fields) (fieldsTokens fields) closes := by
  match fields with
  | [] => exact lexes_nil
  | (k, j) :: rest =>
    have hcolon : Lexes [':'] [.colon] anything := lexes_mark rfl rfl
    rw [fieldsChars, fieldsTokens]
    exact (lexes_quotedChars k).append_any (hcolon.append_any
      ((lexes_chars j).append (lexes_moreFields rest) fun _ => closes_moreFields))

lemma lexes_moreFields (fields : List (String × Json)) :
    Lexes (moreFieldsChars fields) (moreFieldsTokens fields) closes := by
  match fields with
  | [] => exact lexes_nil
  | (k, j) :: rest =>
    have hcomma : Lexes [','] [.comma] anything := lexes_mark rfl rfl
    have hcolon : Lexes [':'] [.colon] anything := lexes_mark rfl rfl
    rw [moreFieldsChars, moreFieldsTokens]
    exact hcomma.append_any ((lexes_quotedChars k).append_any (hcolon.append_any
      ((lexes_chars j).append (lexes_moreFields rest) fun _ => closes_moreFields)))

end

lemma lex_compact {fields : List (String × Json)}
    (h : (Json.obj fields).tokens.all Token.isSound = true) :
    lex (Json.obj fields).compact = (Json.obj fields).tokens := by
  have hread := (lexes_object fields).sound [] [] rfl h
  rw [List.append_nil, List.append_nil, List.foldl_nil] at hread
  rw [lex, compact, String.toList_ofList, hread]
  simp [LexState.finish]

/-- The text of an object with a number that cannot be read has a malformed token. -/
lemma lex_compact_broken {fields : List (String × Json)}
    (h : (Json.obj fields).tokens.all Token.isSound = false) :
    (lex (Json.obj fields).compact).all Token.isSound = false := by
  obtain ⟨us, hus, hread⟩ := (lexes_object fields).broken [] [] rfl h
  rw [List.append_nil] at hread
  rw [lex, compact, String.toList_ofList, hread]
  simpa [LexState.finish] using hus

end RowPolicy.Json
