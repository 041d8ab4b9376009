import RowPolicy.Proofs.Number
import RowPolicy.Sql.Quote
import RowPolicy.Sql.Token

/-!
# Lexing of rendered text

What a text is read as, without regard to places. A piece of text spells tokens if they are read
wherever it stands, as long as the character behind it does not run into its last token; so a
rendered text is read piece by piece.
-/

namespace RowPolicy.Sql

/-! ### Every token shortens the text -/

variable {quote c : Char} {cs rest ds word : List Char} {p q : Char → Bool} {ts us : List Token}

lemma length_readQuoted {inner : List Char} (h : readQuoted quote cs = some (inner, rest)) :
    rest.length ≤ cs.length := by
  fun_induction readQuoted quote cs generalizing inner rest with
  | case1 => simp at h
  | case2 c hc d ds hd ih | case5 c cs hc ih =>
    obtain ⟨⟨inner', rest'⟩, hread, heq⟩ := Option.map_eq_some_iff.mp h
    obtain ⟨rfl, rfl⟩ := Prod.mk.inj heq
    have := ih hread
    simp only [List.length_cons]
    omega
  | case3 c hc d ds hd =>
    obtain ⟨rfl, rfl⟩ := Prod.mk.inj (Option.some.inj h)
    simp
  | case4 c hc =>
    obtain ⟨rfl, rfl⟩ := Prod.mk.inj (Option.some.inj h)
    simp

lemma length_afterBlock (cs : List Char) : (afterBlock cs).length ≤ cs.length := by
  fun_induction afterBlock cs with
  | case1 => simp
  | case2 rest => simp only [List.length_cons]; omega
  | case3 c rest _ ih => simp only [List.length_cons]; omega

lemma length_dropWhile_le :
    (cs.dropWhile p).length ≤ cs.length :=
  (List.dropWhile_sublist p).length_le

lemma length_readExponent (cs : List Char) : (readExponent cs).2.length ≤ cs.length := by
  unfold readExponent
  split
  · rename_i e rest
    split_ifs
    · split
      · rename_i s more
        split_ifs
        · exact Nat.le_trans length_dropWhile_le (by simp)
        · exact Nat.le_trans length_dropWhile_le (by simp only [List.length_cons]; omega)
        · simp
      · simp
    · simp
  · simp

lemma length_readSymbol (c : Char) (cs : List Char) :
    (readSymbol c cs).2.length ≤ cs.length := by
  unfold readSymbol
  split
  · split_ifs <;> simp
  · split_ifs <;> simp

def fractionOf (cs : List Char) : List Char × List Char :=
  match cs with
  | '.' :: more => ('.' :: more.takeWhile Char.isDigit, more.dropWhile Char.isDigit)
  | _ => ([], cs)

def numberToken (whole fraction exponent : List Char) : Token :=
  if fraction.isEmpty && exponent.isEmpty then .int (String.ofList whole)
  else .real (String.ofList (whole ++ fraction ++ exponent))

/-- A number that a name runs into is no token. -/
def endNumber (token : Token) (rest : List Char) : Token × List Char :=
  match rest with
  | c :: _ => if isWordChar c then (.illegal, rest.dropWhile isWordChar) else (token, rest)
  | [] => (token, rest)

lemma readNumber_eq (cs : List Char) :
    readNumber cs =
      let fraction := fractionOf (cs.dropWhile Char.isDigit)
      let exponent := readExponent fraction.2
      endNumber (numberToken (cs.takeWhile Char.isDigit) fraction.1 exponent.1) exponent.2 :=
  rfl

lemma length_fractionOf (cs : List Char) : (fractionOf cs).2.length ≤ cs.length := by
  unfold fractionOf
  split
  · exact Nat.le_trans length_dropWhile_le (Nat.le_succ _)
  · exact Nat.le_refl _

lemma length_endNumber (token : Token) (rest : List Char) :
    (endNumber token rest).2.length ≤ rest.length := by
  unfold endNumber
  split
  · split_ifs
    · exact length_dropWhile_le
    · exact Nat.le_refl _
  · exact Nat.le_refl _

lemma length_readNumber
    (h : (c.isDigit || (c == '.' && (cs.head?.map Char.isDigit).getD false)) = true) :
    (readNumber (c :: cs)).2.length ≤ cs.length := by
  rw [readNumber_eq]
  refine Nat.le_trans (length_endNumber _ _) (Nat.le_trans (length_readExponent _) ?_)
  by_cases hdigit : c.isDigit = true
  · rw [List.dropWhile_cons_of_pos hdigit]
    exact Nat.le_trans (length_fractionOf _) length_dropWhile_le
  · obtain rfl : c = '.' := by simpa [hdigit] using And.left (by simpa [hdigit] using h)
    exact length_dropWhile_le

lemma length_readToken (c : Char) (cs : List Char) :
    (readToken c cs).2.length ≤ cs.length := by
  unfold readToken
  -- The tests are those of the reader, in its order.
  by_cases hspace : isSpace c = true
  · exact Nat.le_of_eq (by rw [if_pos hspace])
  rw [if_neg hspace]
  by_cases hline : (c == '-' && cs.head? == some '-') = true
  · rw [if_pos hline]
    exact length_dropWhile_le
  rw [if_neg hline]
  by_cases hblock : (c == '/' && cs.head? == some '*') = true
  · rw [if_pos hblock]
    exact Nat.le_trans (length_afterBlock _) (by simp)
  rw [if_neg hblock]
  by_cases htext : (c == '\x27') = true
  · rw [if_pos htext]
    cases hread : readQuoted c cs with
    | none => simp
    | some r => exact length_readQuoted hread
  rw [if_neg htext]
  by_cases hname : (c == '"' || c.toNat == 96) = true
  · rw [if_pos hname]
    cases hread : readQuoted c cs with
    | none => simp
    | some r => exact length_readQuoted hread
  rw [if_neg hname]
  by_cases hbracket : (c == '[') = true
  · rw [if_pos hbracket]
    have hle : (cs.dropWhile (· != ']')).length ≤ cs.length := length_dropWhile_le
    cases hdrop : cs.dropWhile (· != ']') with
    | nil => simp
    | cons d rest =>
      rw [hdrop, List.length_cons] at hle
      exact Nat.le_trans (Nat.le_succ _) hle
  rw [if_neg hbracket]
  by_cases hbytes : ((c == 'x' || c == 'X') && cs.head? == some '\x27') = true
  · rw [if_pos hbytes]
    have hle : ((cs.drop 1).dropWhile (· != '\x27')).length ≤ cs.length :=
      Nat.le_trans length_dropWhile_le (by simp)
    cases hdrop : (cs.drop 1).dropWhile (· != '\x27') with
    | nil => simp
    | cons d rest =>
      rw [hdrop, List.length_cons] at hle
      dsimp only
      cases readBytes ((cs.drop 1).takeWhile (· != '\x27')) with
      | none => exact Nat.le_trans (Nat.le_succ _) hle
      | some bs => exact Nat.le_trans (Nat.le_succ _) hle
  rw [if_neg hbytes]
  by_cases hword : isWordStart c = true
  · rw [if_pos hword]
    exact length_dropWhile_le
  rw [if_neg hword]
  by_cases hnumber : (c.isDigit || (c == '.' && (cs.head?.map Char.isDigit).getD false)) = true
  · rw [if_pos hnumber]
    exact length_readNumber hnumber
  rw [if_neg hnumber]
  by_cases hparam : (c == '?') = true
  · rw [if_pos hparam]
    exact length_dropWhile_le
  rw [if_neg hparam]
  exact length_readSymbol c cs

/-! ### Tokens without places -/

def tokens (cs : List Char) : List Token := (lexFrom cs.length cs.length cs).map Lexeme.token

/-- Fuel for every character is enough. -/
lemma map_token_lexFrom {total fuel : Nat} (h : cs.length ≤ fuel) :
    (lexFrom total fuel cs).map Lexeme.token = tokens cs := by
  suffices hsame : ∀ (total' fuel' : Nat), cs.length ≤ fuel' →
      (lexFrom total fuel cs).map Lexeme.token = (lexFrom total' fuel' cs).map Lexeme.token from
    hsame _ _ (Nat.le_refl _)
  intro total' fuel' h'
  induction fuel generalizing cs fuel' with
  | zero =>
    obtain rfl : cs = [] := List.eq_nil_of_length_eq_zero (Nat.le_zero.mp h)
    cases fuel' <;> rfl
  | succ fuel ih =>
    match cs, fuel' with
    | [], 0 => rfl
    | [], _ + 1 => rfl
    | c :: cs, 0 => simp at h'
    | c :: cs, fuel' + 1 =>
      have hlength := length_readToken c cs
      simp only [List.length_cons, Nat.add_le_add_iff_right] at h h'
      rw [lexFrom, lexFrom]
      match hread : readToken c cs with
      | (none, rest) =>
        rw [hread] at hlength
        exact ih (Nat.le_trans hlength h) _ (Nat.le_trans hlength h')
      | (some token, rest) =>
        rw [hread] at hlength
        exact congrArg (token :: ·) (ih (Nat.le_trans hlength h) _ (Nat.le_trans hlength h'))

@[simp] lemma tokens_nil : tokens [] = [] := rfl

lemma tokens_cons (c : Char) (cs : List Char) :
    tokens (c :: cs) = (readToken c cs).1.toList ++ tokens (readToken c cs).2 := by
  have hlength := length_readToken c cs
  rw [tokens, List.length_cons, lexFrom]
  match hread : readToken c cs with
  | (none, rest) =>
    rw [hread] at hlength
    exact map_token_lexFrom hlength
  | (some token, rest) =>
    rw [hread] at hlength
    exact congrArg (token :: ·) (map_token_lexFrom hlength)

lemma map_token_lex (s : String) :
    (lex s).map Lexeme.token = tokens (s.toList.takeWhile (·.toNat != 0)) :=
  map_token_lexFrom (Nat.le_refl _)

/-! ### Pieces of text -/

/-- The text is read as the tokens, whatever follows it, if only the character behind it may stand
there. -/
def Spells (cs : List Char) (ts : List Token) (next : Char → Bool) : Prop :=
  ∀ rest, rest.head?.all next = true → tokens (cs ++ rest) = ts ++ tokens rest

def anything : Char → Bool := fun _ => true

/-- A word does not go on. -/
def endsWord (c : Char) : Bool := !isWordChar c && c != '\x27'

/-- A number does not go on. -/
def endsNumber (c : Char) : Bool := !isWordChar c && c != '.'

lemma Spells.append (h : Spells cs ts p) (h' : Spells ds us q) (hmeet : ds.head?.any p = true) :
    Spells (cs ++ ds) (ts ++ us) q := by
  intro rest hrest
  have hhead : (ds ++ rest).head?.all p = true := by
    cases ds with
    | nil => simp at hmeet
    | cons d ds => simpa using hmeet
  rw [List.append_assoc, h _ hhead, h' rest hrest, List.append_assoc]

lemma Spells.mono (h : Spells cs ts p) (hq : ∀ c, q c = true → p c = true) : Spells cs ts q := by
  intro rest hrest
  refine h rest ?_
  cases rest with
  | nil => rfl
  | cons c rest => exact hq c hrest

/-! ### Quoted names and texts -/

lemma doubled_nil (quote : Char) : doubled quote [] = [] := rfl

lemma doubled_cons (quote c : Char) (cs : List Char) :
    doubled quote (c :: cs) =
      (if c == quote then [quote, quote] else [c]) ++ doubled quote cs := rfl

/-- What is written between quotes is read back. -/
lemma readQuoted_doubled (h : rest.head?.all (· != quote) = true) :
    readQuoted quote (doubled quote cs ++ quote :: rest) = some (cs, rest) := by
  induction cs with
  | nil =>
    cases rest with
    | nil => simp [doubled_nil, readQuoted]
    | cons d rest =>
      have hd : (d == quote) = false := by simpa using h
      simp [doubled_nil, readQuoted, hd]
  | cons c cs ih =>
    by_cases hc : (c == quote) = true
    · obtain rfl := eq_of_beq hc
      simp [doubled_cons, readQuoted, ih]
    · rw [doubled_cons, if_neg hc, List.cons_append, List.nil_append, List.cons_append,
        readQuoted.eq_def]
      simp only [hc, ih]
      rfl

lemma spells_quoteName (s : String) :
    Spells (quoteName s).toList [.name s true] (· != '"') := by
  intro rest hrest
  have htext : (quoteName s).toList ++ rest = '"' :: (doubled '"' s.toList ++ '"' :: rest) := by
    simp [quoteName, enclosed]
  have hread : readToken '"' (doubled '"' s.toList ++ '"' :: rest) =
      (some (.name s true), rest) := by
    simp [readToken, isSpace, readQuoted_doubled hrest]
  rw [htext, tokens_cons, hread]
  rfl

lemma spells_quoteText (s : String) :
    Spells (quoteText s).toList [.text s] (· != '\x27') := by
  intro rest hrest
  have htext : (quoteText s).toList ++ rest =
      '\x27' :: (doubled '\x27' s.toList ++ '\x27' :: rest) := by
    simp [quoteText, enclosed]
  have hread : readToken '\x27' (doubled '\x27' s.toList ++ '\x27' :: rest) =
      (some (.text s), rest) := by
    simp [readToken, isSpace, readQuoted_doubled hrest]
  rw [htext, tokens_cons, hread]
  rfl

/-! ### Words, blanks and marks -/

lemma eq_ofNat_of_toNat {n : Nat} (h : c.toNat = n) : c = Char.ofNat n := by
  rw [← h, Char.ofNat_toNat]

lemma isSpace_of_isWordStart (h : isWordStart c = true) : isSpace c = false := by
  rw [Bool.eq_false_iff]
  intro hspace
  simp only [isSpace, Bool.or_eq_true, beq_iff_eq] at hspace
  rcases hspace with ((((rfl | rfl) | rfl) | rfl) | h') | h'
  · exact absurd h (by decide)
  · exact absurd h (by decide)
  · exact absurd h (by decide)
  · exact absurd h (by decide)
  · exact absurd h (eq_ofNat_of_toNat h' ▸ by decide)
  · exact absurd h (eq_ofNat_of_toNat h' ▸ by decide)

/-- What does not end a word ends at the first character that does. -/
lemma takeWhile_append_of_head (hcs : cs.all p = true)
    (hrest : rest.head?.all (fun c => !p c) = true) :
    (cs ++ rest).takeWhile p = cs ∧ (cs ++ rest).dropWhile p = rest := by
  rw [List.takeWhile_append_of_pos (by simpa using hcs),
    List.dropWhile_append_of_pos (by simpa using hcs)]
  cases rest with
  | nil => simp
  | cons c rest =>
    have hc : p c = false := by simpa using hrest
    simp [hc]

/-- A bare word is read up to the first character that is not part of it. -/
lemma readToken_word (hstart : isWordStart c = true) (hword : cs.all isWordChar = true)
    (hrest : rest.head?.all endsWord = true) :
    readToken c (cs ++ rest) = (some (.word (String.ofList (c :: cs))), rest) := by
  -- None of the tests that come before the one for words applies.
  have hne : ∀ d, isWordStart d = false → (c == d) = false := by
    intro d hd
    rw [beq_eq_false_iff_ne]
    rintro rfl
    simp [hstart] at hd
  have htick : (c.toNat == 96) = false := by
    rw [beq_eq_false_iff_ne]
    intro h
    exact absurd hstart (eq_ofNat_of_toNat h ▸ by decide)
  have hquote : ((cs ++ rest).head? == some '\x27') = false := by
    rw [beq_eq_false_iff_ne]
    intro h
    cases cs with
    | nil =>
      rw [List.nil_append] at h
      simp [h, endsWord] at hrest
    | cons d ds =>
      obtain rfl : d = '\x27' := by simpa using h
      simp [isWordChar] at hword
  have hends : rest.head?.all (fun c => !isWordChar c) = true := by
    cases rest with
    | nil => rfl
    | cons d rest =>
      simp only [List.head?_cons, Option.all_some, endsWord, Bool.and_eq_true] at hrest ⊢
      exact hrest.1
  obtain ⟨htake, hdrop⟩ := takeWhile_append_of_head hword hends
  rw [readToken, isSpace_of_isWordStart hstart, hne '-' (by decide), hne '/' (by decide),
    hne '\x27' (by decide), hne '"' (by decide), htick, hne '[' (by decide), hquote, hstart, htake,
    hdrop]
  simp

/-- The tokens of a blank or a mark, unless the character behind it may be part of the mark. -/
def markTokens (c : Char) (next : Option Char) : Option (List Token) :=
  if c == ' ' then some []
  else if ['(', ')', ',', '*'].contains c then some [.symbol (String.ofList [c])]
  else if c == '.' && next.any (fun d => !d.isDigit) then some [.symbol "."]
  else if c == '=' && next.any (· != '=') then some [.symbol "="]
  else none

lemma readToken_mark (hc : c ∈ ['(', ')', ',', '*']) (rest : List Char) :
    readToken c rest = (some (.symbol (String.ofList [c])), rest) := by
  simp only [List.mem_cons, List.not_mem_nil, or_false] at hc
  rcases hc with rfl | rfl | rfl | rfl <;> cases rest <;>
    simp [readToken, isSpace, isWordStart, isWordChar, readSymbol, pairs, marks]

lemma readToken_dot {d : Char} (hd : d.isDigit = false) (rest : List Char) :
    readToken '.' (d :: rest) = (some (.symbol "."), d :: rest) := by
  simp [readToken, isSpace, isWordStart, isWordChar, hd, readSymbol, pairs, marks]

lemma readToken_equals {d : Char} (hd : d ≠ '=') (rest : List Char) :
    readToken '=' (d :: rest) = (some (.symbol "="), d :: rest) := by
  simp [readToken, isSpace, isWordStart, isWordChar, readSymbol, pairs, marks, hd]

lemma tokens_mark {next : Option Char} (h : markTokens c next = some ts)
    (hnext : ∀ d, next = some d → rest.head? = some d) :
    tokens (c :: rest) = ts ++ tokens rest := by
  unfold markTokens at h
  split_ifs at h with hblank hmark hdot heq
  · obtain rfl := eq_of_beq hblank
    obtain rfl := Option.some.inj h
    rw [tokens_cons]
    rfl
  · obtain rfl := Option.some.inj h
    rw [tokens_cons, readToken_mark (by simpa using hmark)]
    rfl
  · obtain rfl := Option.some.inj h
    rw [Bool.and_eq_true, beq_iff_eq, Option.any_eq_true] at hdot
    obtain ⟨rfl, d, rfl, hd⟩ := hdot
    obtain ⟨rest', rfl⟩ := List.head?_eq_some_iff.mp (hnext d rfl)
    rw [tokens_cons, readToken_dot (by simpa using hd)]
    rfl
  · obtain rfl := Option.some.inj h
    rw [Bool.and_eq_true, beq_iff_eq, Option.any_eq_true] at heq
    obtain ⟨rfl, d, rfl, hd⟩ := heq
    obtain ⟨rest', rfl⟩ := List.head?_eq_some_iff.mp (hnext d rfl)
    rw [tokens_cons, readToken_equals (by simpa using hd)]
    rfl

/-- The tokens of a text of words, blanks and marks that nothing behind it can change; `word` is
the part of a word that stands before it. -/
def plainTokens : List Char → List Char → Option (List Token)
  | word, [] => if word.isEmpty then some [] else none
  | word, c :: cs =>
    if isWordChar c then
      if word.isEmpty && !isWordStart c then none else plainTokens (word ++ [c]) cs
    else do
      let ts ← markTokens c cs.head?
      let us ← plainTokens [] cs
      some ((if word.isEmpty then [] else [Token.word (String.ofList word)]) ++ (ts ++ us))

lemma endsWord_of_markTokens {next : Option Char} (h : markTokens c next = some ts) :
    endsWord c = true := by
  unfold markTokens at h
  split_ifs at h with hblank hmark hdot heq
  · obtain rfl := eq_of_beq hblank
    decide
  · simp only [List.contains_iff_mem, List.mem_cons, List.not_mem_nil, or_false] at hmark
    rcases hmark with rfl | rfl | rfl | rfl <;> decide
  · obtain rfl := eq_of_beq (Bool.and_eq_true_iff.mp hdot).1
    decide
  · obtain rfl := eq_of_beq (Bool.and_eq_true_iff.mp heq).1
    decide

lemma tokens_word (hword : word.all isWordChar = true)
    (hstart : word.head?.all isWordStart = true) (hrest : rest.head?.all endsWord = true) :
    tokens (word ++ rest) =
      (if word.isEmpty then [] else [Token.word (String.ofList word)]) ++ tokens rest := by
  cases word with
  | nil => rfl
  | cons c cs =>
    rw [List.all_cons, Bool.and_eq_true] at hword
    rw [List.cons_append, tokens_cons, readToken_word (by simpa using hstart) hword.2 hrest]
    rfl

lemma tokens_plain (h : plainTokens word cs = some ts) (hword : word.all isWordChar = true)
    (hstart : word.head?.all isWordStart = true) (rest : List Char) :
    tokens (word ++ (cs ++ rest)) = ts ++ tokens rest := by
  induction cs generalizing word ts with
  | nil =>
    rw [plainTokens] at h
    split_ifs at h with hempty
    · obtain rfl := List.isEmpty_iff.mp hempty
      obtain rfl := Option.some.inj h
      rfl
  | cons c cs ih =>
    rw [plainTokens] at h
    by_cases hc : isWordChar c = true
    · -- The word goes on.
      rw [if_pos hc] at h
      by_cases hbad : (word.isEmpty && !isWordStart c) = true
      · simp [hbad] at h
      · rw [if_neg hbad] at h
        have hstart' : (word ++ [c]).head?.all isWordStart = true := by
          cases word with
          | nil => simpa using hbad
          | cons d ds => exact hstart
        have heq := ih h (by simp [List.all_append, hword, hc]) hstart'
        rwa [List.append_assoc] at heq
    · -- A mark ends the word, and the next word starts behind it.
      rw [if_neg hc] at h
      simp only [Option.bind_eq_bind, Option.bind_eq_some_iff, Option.some.injEq] at h
      obtain ⟨ms, hms, us, hus, rfl⟩ := h
      have hnext : ∀ d, cs.head? = some d → (cs ++ rest).head? = some d := by
        intro d hd
        obtain ⟨cs', rfl⟩ := List.head?_eq_some_iff.mp hd
        rfl
      rw [List.cons_append, tokens_word hword hstart (by simpa using endsWord_of_markTokens hms),
        tokens_mark hms hnext, List.append_assoc, List.append_assoc]
      exact congrArg _ (congrArg _ (ih hus rfl rfl))

lemma spells_plain (h : plainTokens [] cs = some ts) :
    Spells cs ts anything :=
  fun rest _ => tokens_plain h rfl rfl rest

lemma spells_word (hstart : isWordStart c = true) (hword : cs.all isWordChar = true) :
    Spells (c :: cs) [.word (String.ofList (c :: cs))] endsWord := by
  intro rest hrest
  rw [List.cons_append, tokens_cons, readToken_word hstart hword hrest]
  rfl

/-! ### Numbers and parameters -/

lemma isWordChar_of_isDigit (h : c.isDigit = true) : isWordChar c = true := by
  simp [isWordChar, Char.isAlphanum, h]

/-- Before a number that starts with a digit, no other token is looked for. -/
lemma readToken_digit (hc : c.isDigit = true) (cs : List Char) :
    readToken c cs = (some (readNumber (c :: cs)).1, (readNumber (c :: cs)).2) := by
  have hne : ∀ d : Char, d.isDigit = false → (c == d) = false := by
    intro d hd
    rw [beq_eq_false_iff_ne]
    rintro rfl
    simp [hc] at hd
  have hnat : ∀ n, (Char.ofNat n).isDigit = false → (c.toNat == n) = false := by
    intro n hn
    rw [beq_eq_false_iff_ne]
    intro h
    rw [eq_ofNat_of_toNat h] at hc
    simp [hc] at hn
  have hspace : isSpace c = false := by
    simp only [isSpace, hne ' ' (by decide), hne '\t' (by decide), hne '\n' (by decide),
      hne '\r' (by decide), hnat 12 (by decide), hnat 0xFEFF (by decide), Bool.or_false]
  rw [readToken, hspace, hne '-' (by decide), hne '/' (by decide), hne '\x27' (by decide),
    hne '"' (by decide), hnat 96 (by decide), hne '[' (by decide), hne 'x' (by decide),
    hne 'X' (by decide)]
  simp [isWordStart, hc]

lemma readExponent_of_endsNumber (h : rest.head?.all endsNumber = true) :
    readExponent rest = ([], rest) := by
  cases rest with
  | nil => rfl
  | cons c rest =>
    have hc : isWordChar c = false := by
      simp only [List.head?_cons, Option.all_some, endsNumber, Bool.and_eq_true,
        Bool.not_eq_true'] at h
      exact h.1
    have hne : ∀ d, isWordChar d = true → (c == d) = false := by
      intro d hd
      rw [beq_eq_false_iff_ne]
      rintro rfl
      simp [hc] at hd
    simp [readExponent, hne 'e' (by decide), hne 'E' (by decide)]

lemma endNumber_of_endsNumber {token : Token} (h : rest.head?.all endsNumber = true) :
    endNumber token rest = (token, rest) := by
  cases rest with
  | nil => rfl
  | cons c rest =>
    simp only [List.head?_cons, Option.all_some, endsNumber, Bool.and_eq_true,
      Bool.not_eq_true'] at h
    simp [endNumber, h.1]

lemma endsNumber_not_digit (h : rest.head?.all endsNumber = true) :
    rest.head?.all (fun c => !c.isDigit) = true := by
  cases rest with
  | nil => rfl
  | cons c rest =>
    simp only [List.head?_cons, Option.all_some, endsNumber, Bool.and_eq_true,
      Bool.not_eq_true'] at h ⊢
    rw [Bool.eq_false_iff]
    intro hc
    simp [isWordChar_of_isDigit hc] at h

lemma spells_int (hne : ds ≠ []) (hds : ds.all Char.isDigit = true) :
    Spells ds [.int (String.ofList ds)] endsNumber := by
  obtain ⟨c, cs, rfl⟩ := List.exists_cons_of_ne_nil hne
  intro rest hrest
  have hc : c.isDigit = true := by
    rw [List.all_cons, Bool.and_eq_true] at hds
    exact hds.1
  obtain ⟨htake, hdrop⟩ := takeWhile_append_of_head hds (endsNumber_not_digit hrest)
  have hfraction : fractionOf rest = ([], rest) := by
    cases rest with
    | nil => rfl
    | cons d rest =>
      have hd : d ≠ '.' := by
        rintro rfl
        simp [endsNumber] at hrest
      unfold fractionOf
      split
      · rename_i heq
        exact absurd (List.cons.inj heq).1 hd
      · rfl
  rw [List.cons_append, tokens_cons, readToken_digit hc, ← List.cons_append, readNumber_eq, htake,
    hdrop, hfraction]
  simp [readExponent_of_endsNumber hrest, endNumber_of_endsNumber hrest, numberToken]

lemma spells_real {fs : List Char} (hne : ds ≠ []) (hds : ds.all Char.isDigit = true)
    (hfs : fs.all Char.isDigit = true) :
    Spells (ds ++ '.' :: fs) [.real (String.ofList (ds ++ '.' :: fs))] endsNumber := by
  obtain ⟨c, cs, rfl⟩ := List.exists_cons_of_ne_nil hne
  intro rest hrest
  have hc : c.isDigit = true := by
    rw [List.all_cons, Bool.and_eq_true] at hds
    exact hds.1
  have hdot : ('.' :: (fs ++ rest)).head?.all (fun c => !c.isDigit) = true := by
    simp [Char.isDigit]
  obtain ⟨htake, hdrop⟩ := takeWhile_append_of_head hds hdot
  obtain ⟨htake', hdrop'⟩ := takeWhile_append_of_head hfs (endsNumber_not_digit hrest)
  have hfraction : fractionOf ('.' :: (fs ++ rest)) = ('.' :: fs, rest) := by
    simp [fractionOf, htake', hdrop']
  have htext : c :: cs ++ '.' :: fs ++ rest = c :: (cs ++ '.' :: (fs ++ rest)) := by simp
  rw [htext, tokens_cons, readToken_digit hc, ← List.cons_append, readNumber_eq, htake, hdrop,
    hfraction]
  simp [readExponent_of_endsNumber hrest, endNumber_of_endsNumber hrest, numberToken]

lemma spells_minus : Spells ['-'] [.symbol "-"] Char.isDigit := by
  intro rest hrest
  have hread : readToken '-' rest = (some (.symbol "-"), rest) := by
    cases rest with
    | nil => rfl
    | cons d rest =>
      have hd : d ≠ '-' := by
        rintro rfl
        simp [Char.isDigit] at hrest
      simp [readToken, isSpace, isWordStart, isWordChar, readSymbol, pairs, marks, hd]
  rw [List.singleton_append, tokens_cons, hread]
  rfl

lemma spells_dot : Spells ['.'] [.symbol "."] (fun c => !c.isDigit) := by
  intro rest hrest
  cases rest with
  | nil => rfl
  | cons d rest =>
    rw [List.singleton_append, tokens_cons, readToken_dot (by simpa using hrest)]
    rfl

lemma spells_param (n : Nat) :
    Spells ('?' :: Number.digits n) [.param (some n)] (fun c => !c.isDigit) := by
  intro rest hrest
  obtain ⟨htake, hdrop⟩ := takeWhile_append_of_head (Number.digits_all n) hrest
  have hread : readToken '?' (Number.digits n ++ rest) = (some (.param (some n)), rest) := by
    simp [readToken, isSpace, isWordStart, isWordChar, htake, hdrop, Number.digits_ne_nil,
      Number.ofDigits_digits]
  rw [List.cons_append, tokens_cons, hread]
  rfl

/-! ### Null characters -/

def untilNull (cs : List Char) : List Char := cs.takeWhile (·.toNat != 0)

def NoNull (cs : List Char) : Prop := ∀ c ∈ cs, c.toNat ≠ 0

lemma noNull_iff : NoNull cs ↔ cs.all (fun c => c.toNat != 0) = true := by
  simp [NoNull]

lemma untilNull_of_noNull (h : NoNull cs) (rest : List Char) :
    untilNull (cs ++ rest) = cs ++ untilNull rest := by
  rw [untilNull, List.takeWhile_append_of_pos (by simpa [NoNull] using h)]
  rfl

lemma untilNull_of_not_noNull (h : ¬ NoNull cs) (rest : List Char) :
    untilNull (cs ++ rest) = untilNull cs := by
  induction cs with
  | nil => exact absurd (fun c hc => nomatch hc) h
  | cons c cs ih =>
    by_cases hc : c.toNat = 0
    · simp [untilNull, hc]
    · have hcs : ¬ NoNull cs := fun hcs => h (List.forall_mem_cons.mpr ⟨hc, hcs⟩)
      have heq := ih hcs
      simp only [untilNull] at heq ⊢
      simp [hc, heq]

/-- The tokens of a text that a null character cuts inside a quoted name or text. -/
def EndsBroken (ts : List Token) : Prop :=
  ∃ us, ts = us ++ [Token.illegal] ∧ .symbol ";" ∉ us

/-- The text spells tokens of one statement, and a null character in it breaks off inside a quoted
name or text. -/
structure Writes (cs : List Char) (ts : List Token) (next : Char → Bool) : Prop where
  nonempty : cs ≠ []
  spells : Spells cs ts next
  one : .symbol ";" ∉ ts
  broken : ¬ NoNull cs → EndsBroken (tokens (untilNull cs))

lemma Writes.append (h : Writes cs ts p) (h' : Writes ds us q) (hmeet : ds.head?.any p = true) :
    Writes (cs ++ ds) (ts ++ us) q := by
  refine ⟨by simp [h.nonempty], h.spells.append h'.spells hmeet, by simp [h.one, h'.one],
    fun hnull => ?_⟩
  by_cases hcs : NoNull cs
  · have hds : ¬ NoNull ds := by
      intro hds
      refine hnull fun c hc => ?_
      rcases List.mem_append.mp hc with hc | hc
      · exact hcs c hc
      · exact hds c hc
    obtain ⟨vs, hvs, hone⟩ := h'.broken hds
    have hhead : (untilNull ds).head?.all p = true := by
      cases ds with
      | nil => rfl
      | cons d ds =>
        by_cases hd : d.toNat = 0
        · simp [untilNull, hd]
        · simpa [untilNull, hd] using hmeet
    refine ⟨ts ++ vs, ?_, by simp [h.one, hone]⟩
    rw [untilNull_of_noNull hcs, h.spells _ hhead, hvs, List.append_assoc]
  · rw [untilNull_of_not_noNull hcs]
    exact h.broken hcs

lemma Writes.append_any (h : Writes cs ts anything) (h' : Writes ds us q) :
    Writes (cs ++ ds) (ts ++ us) q := by
  refine h.append h' ?_
  cases ds with
  | nil => exact absurd rfl h'.nonempty
  | cons d ds => rfl

lemma Spells.writes {next : Char → Bool} (h : Spells cs ts next) (hne : cs ≠ [])
    (hone : .symbol ";" ∉ ts) (hnull : NoNull cs) :
    Writes cs ts next :=
  ⟨hne, h, hone, fun hn => absurd hnull hn⟩

lemma Writes.mono (h : Writes cs ts p) (hq : ∀ c, q c = true → p c = true) : Writes cs ts q :=
  ⟨h.nonempty, h.spells.mono hq, h.one, h.broken⟩

lemma readQuoted_open (cs : List Char) :
    readQuoted quote (doubled quote cs) = none := by
  induction cs with
  | nil => rfl
  | cons c cs ih =>
    by_cases hc : (c == quote) = true
    · obtain rfl := eq_of_beq hc
      simp [doubled_cons, readQuoted, ih]
    · rw [doubled_cons, if_neg hc, List.cons_append, List.nil_append, readQuoted.eq_def]
      simp only [hc, ih]
      rfl

lemma untilNull_doubled (hquote : quote.toNat ≠ 0) (cs : List Char) :
    untilNull (doubled quote cs) = doubled quote (untilNull cs) := by
  induction cs with
  | nil => rfl
  | cons c cs ih =>
    simp only [untilNull] at ih ⊢
    by_cases hc : (c == quote) = true
    · obtain rfl := eq_of_beq hc
      simp [doubled_cons, hquote, ih]
    · by_cases hnull : c.toNat = 0
      · simp [doubled_cons, hc, hnull, doubled_nil]
      · simp [doubled_cons, hc, hnull, ih]

lemma endsBroken_enclosed (hquote : quote.toNat ≠ 0) {s : String}
    (hread : ∀ cs, readQuoted quote cs = none → (readToken quote cs) = (some .illegal, []))
    (h : ¬ NoNull (enclosed quote s).toList) :
    EndsBroken (tokens (untilNull (enclosed quote s).toList)) := by
  have htext : (enclosed quote s).toList = [quote] ++ (doubled quote s.toList ++ [quote]) := by
    simp [enclosed]
  have hone : NoNull [quote] := by simpa [NoNull] using hquote
  have hinner : ¬ NoNull (doubled quote s.toList) := by
    intro hinner
    rw [htext] at h
    refine h fun c hc => ?_
    simp only [List.mem_append, List.mem_singleton] at hc
    rcases hc with rfl | hc | rfl
    · exact hquote
    · exact hinner c hc
    · exact hquote
  rw [htext, untilNull_of_noNull hone, untilNull_of_not_noNull hinner, untilNull_doubled hquote,
    List.singleton_append, tokens_cons, hread _ (readQuoted_open _)]
  exact ⟨[], rfl, by simp⟩

lemma writes_quoteName (s : String) : Writes (quoteName s).toList [.name s true] (· != '"') := by
  refine ⟨by simp [quoteName, enclosed], spells_quoteName s, by simp,
    endsBroken_enclosed (by decide) fun cs hcs => ?_⟩
  simp [readToken, isSpace, hcs]

lemma writes_quoteText (s : String) :
    Writes (quoteText s).toList [.text s] (· != '\x27') := by
  refine ⟨by simp [quoteText, enclosed], spells_quoteText s, by simp,
    endsBroken_enclosed (by decide) fun cs hcs => ?_⟩
  simp [readToken, isSpace, hcs]

lemma noNull_of_isWordChar (h : cs.all isWordChar = true) : NoNull cs := by
  intro c hc hnull
  have hword := List.all_eq_true.mp h c hc
  rw [eq_ofNat_of_toNat hnull] at hword
  exact absurd hword (by decide)

lemma noNull_of_isDigit (h : cs.all Char.isDigit = true) : NoNull cs :=
  noNull_of_isWordChar (List.all_eq_true.mpr fun c hc =>
    isWordChar_of_isDigit (List.all_eq_true.mp h c hc))

lemma noNull_of_plain (h : plainTokens word cs = some ts) : NoNull cs := by
  induction cs generalizing word ts with
  | nil => simp [NoNull]
  | cons c cs ih =>
    have hnull : c.toNat ≠ 0 := by
      intro hnull
      rw [eq_ofNat_of_toNat hnull] at h
      simp [plainTokens, isWordChar, markTokens] at h
    rw [plainTokens] at h
    by_cases hc : isWordChar c = true
    · rw [if_pos hc] at h
      by_cases hbad : (word.isEmpty && !isWordStart c) = true
      · simp [hbad] at h
      · rw [if_neg hbad] at h
        exact List.forall_mem_cons.mpr ⟨hnull, ih h⟩
    · rw [if_neg hc] at h
      simp only [Option.bind_eq_bind, Option.bind_eq_some_iff, Option.some.injEq] at h
      obtain ⟨ms, -, us, hus, -⟩ := h
      exact List.forall_mem_cons.mpr ⟨hnull, ih hus⟩

lemma writes_plain
    (h : plainTokens [] cs = some ts ∧ cs ≠ [] ∧ .symbol ";" ∉ ts) :
    Writes cs ts anything :=
  (spells_plain h.1).writes h.2.1 h.2.2 (noNull_of_plain h.1)

lemma writes_word (hstart : isWordStart c = true) (hword : cs.all isWordChar = true) :
    Writes (c :: cs) [.word (String.ofList (c :: cs))] endsWord := by
  refine (spells_word hstart hword).writes (by simp) (by simp) (noNull_of_isWordChar ?_)
  have hc : isWordChar c = true := by
    rw [isWordStart, Bool.and_eq_true, Bool.and_eq_true] at hstart
    exact hstart.1.1
  simp [hc, hword]

lemma writes_int (hne : ds ≠ []) (hds : ds.all Char.isDigit = true) :
    Writes ds [.int (String.ofList ds)] endsNumber :=
  (spells_int hne hds).writes hne (by simp) (noNull_of_isDigit hds)

lemma writes_real {fs : List Char} (hne : ds ≠ []) (hds : ds.all Char.isDigit = true)
    (hfs : fs.all Char.isDigit = true) :
    Writes (ds ++ '.' :: fs) [.real (String.ofList (ds ++ '.' :: fs))] endsNumber := by
  refine (spells_real hne hds hfs).writes (by simp) (by simp) fun c hc => ?_
  simp only [List.mem_append, List.mem_cons] at hc
  rcases hc with hc | rfl | hc
  · exact noNull_of_isDigit hds c hc
  · decide
  · exact noNull_of_isDigit hfs c hc

lemma writes_param (n : Nat) :
    Writes ('?' :: Number.digits n) [.param (some n)] (fun c => !c.isDigit) := by
  refine (spells_param n).writes (by simp) (by simp) fun c hc => ?_
  rcases List.mem_cons.mp hc with rfl | hc
  · decide
  · exact noNull_of_isDigit (Number.digits_all n) c hc

lemma writes_minus : Writes ['-'] [.symbol "-"] Char.isDigit :=
  spells_minus.writes (by simp) (by simp) (by simp [NoNull])

lemma writes_dot : Writes ['.'] [.symbol "."] (fun c => !c.isDigit) :=
  spells_dot.writes (by simp) (by simp) (by simp [NoNull])

/-- A text is read as the tokens that it writes, unless a null character breaks it off. -/
lemma lex_of_writes {s : String} {next : Char → Bool} (h : Writes s.toList ts next) :
    NoNull s.toList ∧ (lex s).map Lexeme.token = ts ∨
      ¬ NoNull s.toList ∧ EndsBroken ((lex s).map Lexeme.token) := by
  rw [map_token_lex]
  by_cases hnull : NoNull s.toList
  · refine .inl ⟨hnull, ?_⟩
    have huntil := untilNull_of_noNull hnull []
    rw [List.append_nil] at huntil
    have hread := h.spells [] rfl
    rw [List.append_nil] at hread
    calc tokens (untilNull s.toList) = tokens s.toList := by rw [huntil]; simp [untilNull]
      _ = ts := by rw [hread, tokens_nil, List.append_nil]
  · exact .inr ⟨hnull, h.broken hnull⟩

lemma lex_of_writes_append {s : String} {more : List Char} (htext : s.toList = cs ++ more)
    (h : Writes cs ts anything) :
    (∃ us, (lex s).map Lexeme.token = ts ++ us) ∨ EndsBroken ((lex s).map Lexeme.token) := by
  rw [map_token_lex, htext, ← untilNull]
  by_cases hnull : NoNull cs
  · left
    rw [untilNull_of_noNull hnull]
    refine ⟨tokens (untilNull more), h.spells _ ?_⟩
    cases (untilNull more).head? <;> rfl
  · right
    rw [untilNull_of_not_noNull hnull]
    exact h.broken hnull

end RowPolicy.Sql
