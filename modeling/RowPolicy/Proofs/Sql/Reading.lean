import RowPolicy.Proofs.Sql.Consumption
import RowPolicy.Proofs.Sql.Rendering

/-!
# Reading of rendered conditions

What the tokens of a plan are parsed as. A reading is stated with the tokens that may follow and
with the fuel that it needs, so that readings compose as the grammar does.
-/

namespace RowPolicy.Sql

/-! ### Words and symbols -/

/-- Whether a token is a keyword. -/
def Token.isWord (t : Token) (k : String) : Bool :=
  match t with
  | .word s => upper s == k
  | _ => false

lemma Lexeme.isWord_eq (l : Lexeme) (k : String) : l.isWord k = l.token.isWord k := rfl

variable {ls : List Lexeme} {t : Token} {a b k : Nat} {more : List Token} {word : String}
  {inner : Nat → Parse Expr} {tail : Nat → Parse (List Expr)}

/-- The lexemes of a token list that starts with a known token. -/
lemma map_token_eq_cons {ts : List Token} :
    ls.map Lexeme.token = t :: ts ↔
      ∃ start stop rest, ls = ⟨t, start, stop⟩ :: rest ∧ rest.map Lexeme.token = ts := by
  constructor
  · intro h
    obtain ⟨l, rest, rfl, rfl, rfl⟩ := List.map_eq_cons_iff.mp h
    exact ⟨l.start, l.stop, rest, rfl, rfl⟩
  · rintro ⟨a, b, rest, rfl, rfl⟩
    rfl

lemma keyword_cons (k s : String) (a b : Nat) (ls : List Lexeme) :
    keyword k (⟨.word s, a, b⟩ :: ls) = if upper s == k then some ((), ls) else none := rfl

lemma keyword_word {s k : String} (h : (upper s == k) = true) :
    keyword k (⟨.word s, a, b⟩ :: ls) = some ((), ls) := by
  rw [keyword_cons, if_pos h]

lemma keyword_eq_none {k : String}
    (h : ((ls.map Lexeme.token).head?.all fun t => !t.isWord k) = true) : keyword k ls = none := by
  cases ls with
  | nil => rfl
  | cons l rest =>
    simp only [List.map_cons, List.head?_cons, Option.all_some, Bool.not_eq_true'] at h
    simp [keyword, Lexeme.isWord_eq, h]

lemma symbol_cons (s : String) (t : Token) (a b : Nat) (ls : List Lexeme) :
    symbol s (⟨t, a, b⟩ :: ls) = if t == .symbol s then some ((), ls) else none := rfl

lemma symbol_self {s : String} :
    symbol s (⟨.symbol s, a, b⟩ :: ls) = some ((), ls) := by
  simp [symbol_cons]

lemma symbol_eq_none {s : String} (h : ((ls.map Lexeme.token).head?.all (· != .symbol s)) = true) :
    symbol s ls = none := by
  cases ls with
  | nil => rfl
  | cons l rest =>
    simp only [List.map_cons, List.head?_cons, Option.all_some, bne_iff_ne, ne_eq] at h
    simp [symbol, Lexeme.isSymbol, h]

lemma nameOf_word {w : String} (h : reserved.contains (upper w) = false) (a b : Nat)
    (ls : List Lexeme) : nameOf (⟨.word w, a, b⟩ :: ls) = some (w, ls) := by
  simp only [nameOf, h, Bool.false_eq_true, if_false]

/-! ### Readings -/

/-- Given enough fuel, tokens are read as a value with a property, whatever follows them among the
tokens that `stop` allows. -/
def Reads {α : Type} (p : Nat → Parse α) (fuel : Nat) (ts : List Token) (P : α → Prop)
    (stop : Token → Bool) : Prop :=
  ∀ k, fuel ≤ k → ∀ ls more, ls.map Lexeme.token = ts ++ more → more.head?.all stop = true →
    ∃ a rest, p k ls = some (a, rest) ∧ P a ∧ rest.map Lexeme.token = more

/-- No order comparison goes on. -/
def endsOrder (t : Token) : Bool := (orderOf t).isNone

/-- No comparison goes on. -/
def endsEquality (t : Token) : Bool :=
  endsOrder t && (equalityOf t).isNone
    && !(["IS", "ISNULL", "NOTNULL", "IN", "NOT"].any t.isWord)

/-- No conjunction goes on. -/
def endsAnd (t : Token) : Bool := endsEquality t && !t.isWord "AND"

/-- No expression goes on. -/
def endsOr (t : Token) : Bool := endsAnd t && !t.isWord "OR"

lemma endsOr_close : endsOr (.symbol ")") = true := by decide

lemma endsOr_comma : endsOr (.symbol ",") = true := by decide

lemma endsOr_as : endsOr (.word "AS") = true := by decide

/-- No list of expressions goes on. -/
def endsItem (t : Token) : Bool := endsOr t && t != .symbol ","

lemma endsItem_close : endsItem (.symbol ")") = true := by decide

def anyToken : Token → Bool := fun _ => true

def noToken : Token → Bool := fun _ => false

section

variable {α : Type} {p : Nat → Parse α} {fuel fuel' : Nat} {ts : List Token} {P Q : α → Prop}
  {stop stop' : Token → Bool}

lemma Reads.mono (h : Reads p fuel ts P stop) (hfuel : fuel ≤ fuel') (hP : ∀ a, P a → Q a)
    (hstop : ∀ t, stop' t = true → stop t = true) : Reads p fuel' ts Q stop' := by
  intro k hk ls more hls hmore
  have hmore' : more.head?.all stop = true := by
    cases more with
    | nil => rfl
    | cons t rest => exact hstop t hmore
  obtain ⟨a, rest, hread, ha, hrest⟩ := h k (Nat.le_trans hfuel hk) ls more hls hmore'
  exact ⟨a, rest, hread, hP a ha, hrest⟩

lemma Reads.of_tokens {ts' : List Token} (h : Reads p fuel ts P stop) (hts : ts' = ts) :
    Reads p fuel ts' P stop := by
  rwa [hts]

lemma Reads.more_fuel (h : Reads p fuel ts P stop) (hfuel : fuel ≤ fuel') :
    Reads p fuel' ts P stop :=
  h.mono hfuel (fun _ => id) fun _ => id

/-- What is read with fuel to spare. -/
lemma Reads.add (n : Nat)
    (h : ∀ k, fuel ≤ k → ∀ ls more, ls.map Lexeme.token = ts ++ more → more.head?.all stop = true →
      ∃ a rest, p (k + n) ls = some (a, rest) ∧ P a ∧ rest.map Lexeme.token = more) :
    Reads p (fuel + n) ts P stop := by
  intro k hk
  obtain ⟨k, rfl⟩ : ∃ j, k = j + n := ⟨k - n, by omega⟩
  exact h k (by omega)

/-- What is read behind a first token. -/
lemma Reads.token (h : ∀ start stop' k, fuel ≤ k → ∀ ls more, ls.map Lexeme.token = ts ++ more →
      more.head?.all stop = true → ∃ a rest, p k (⟨t, start, stop'⟩ :: ls) = some (a, rest) ∧ P a ∧
        rest.map Lexeme.token = more) :
    Reads p fuel (t :: ts) P stop := by
  intro k hk ls more hls hmore
  obtain ⟨a, b, rest, rfl, hrest⟩ := map_token_eq_cons.mp hls
  exact h a b k hk rest more hrest hmore

lemma Reads.pure {a : α} (ha : P a) (h : ∀ k ls, p k ls = some (a, ls)) :
    Reads p 0 [] P stop :=
  fun k _ ls _ hls _ => ⟨a, ls, h k ls, ha, hls⟩

lemma Reads.last (h : Reads p fuel ts P stop) : Reads p fuel ts P noToken :=
  h.mono (Nat.le_refl _) (fun _ => id) fun _ h => by simp [noToken] at h

end

lemma eq_nil_of_noToken (h : more.head?.all noToken = true) : more = [] := by
  cases more with
  | nil => rfl
  | cons t rest => simp [noToken] at h

lemma all_head?_and {p q : Token → Bool} (h : more.head?.all (fun t => p t && q t) = true) :
    more.head?.all p = true ∧ more.head?.all q = true := by
  cases more with
  | nil => exact ⟨rfl, rfl⟩
  | cons t rest => simpa using h

lemma all_head?_append {ts : List Token} {p : Token → Bool} (h : ts.head?.any p = true) :
    (ts ++ more).head?.all p = true := by
  cases ts with
  | nil => simp at h
  | cons t ts => exact h

lemma all_head?_imp {p q : Token → Bool} (h : ∀ t, p t = true → q t = true)
    (hmore : more.head?.all p = true) :
    more.head?.all q = true := by
  cases more with
  | nil => rfl
  | cons t rest => exact h t hmore

/-! ### Levels of an expression -/

section

variable {text : List Char} {fuel : Nat} {ts : List Token} {P Q : Expr → Prop}

/-- An operand that no order comparison follows. -/
lemma reads_ordered (h : Reads (operand text) fuel ts P anyToken) :
    Reads (ordered text) (fuel + 2) ts P endsOrder := by
  refine .add 2 fun k hk ls more hls hmore => ?_
  obtain ⟨e, rest, hread, he, hrest⟩ := h (k + 1) (by omega) ls more hls
    (all_head?_imp (fun _ _ => rfl) hmore)
  refine ⟨e, rest, ?_, he, hrest⟩
  rw [ordered, hread]
  cases rest with
  | nil => rfl
  | cons l rest =>
    subst hrest
    have horder : orderOf l.token = none := by simpa [endsOrder] using hmore
    simp [orderings, horder]

/-- What follows an operand when no comparison does. -/
lemma equalities_of_ends {e : Expr} (h : (ls.map Lexeme.token).head?.all endsEquality = true) :
    equalities text (k + 1) e ls = some (e, ls) := by
  cases ls with
  | nil => rw [equalities]
  | cons l rest =>
    simp only [List.map_cons, List.head?_cons, Option.all_some, endsEquality, List.any_cons,
      List.any_nil, Bool.and_eq_true, Option.isNone_iff_eq_none, Bool.not_eq_true',
      Bool.or_eq_false_iff] at h
    obtain ⟨⟨-, heq⟩, his, hisnull, hnotnull, hin, hnot, -⟩ := h
    simp [equalities, heq, Lexeme.isWord_eq, his, hisnull, hnotnull, hin, hnot]

end

/-! ### Operands -/

lemma reads_single {text : List Char} {e : Expr}
    (h : ∀ k a b rest, operand text (k + 1) (⟨t, a, b⟩ :: rest) = some (e, rest)) :
    Reads (operand text) 1 [t] (· = e) anyToken :=
  .add 1 <| Reads.token fun a b => Reads.pure rfl fun k ls => h k a b ls

lemma reads_int (text : List Char) (digits : String) :
    Reads (operand text) 1 [.int digits] (· = intLiteral digits false) anyToken :=
  reads_single fun _ _ _ _ => by rw [operand.eq_def]

lemma reads_real (text : List Char) (s : String) :
    Reads (operand text) 1 [.real s] (· = realLiteralOf s false) anyToken :=
  reads_single fun _ _ _ _ => by rw [operand.eq_def]

lemma reads_text (text : List Char) (s : String) :
    Reads (operand text) 1 [.text s] (· = .text s) anyToken :=
  reads_single fun _ _ _ _ => by rw [operand.eq_def]

lemma reads_param (text : List Char) (i : Nat) :
    Reads (operand text) 1 [.param (some (i + 1))] (· = .param i) anyToken :=
  reads_single fun _ _ _ _ => by rw [operand.eq_def]

lemma reads_null (text : List Char) :
    Reads (operand text) 1 [.word "NULL"] (· = .null) anyToken :=
  reads_single fun _ _ _ _ => by
    have h : (upper "NULL" == "NULL") = true := by decide
    rw [operand.eq_def]
    simp [h]

lemma reads_minus {text : List Char} {e : Expr} (h : ∀ k a b c d rest,
      operand text (k + 1) (⟨.symbol "-", a, b⟩ :: ⟨t, c, d⟩ :: rest) = some (e, rest)) :
    Reads (operand text) 1 [.symbol "-", t] (· = e) anyToken :=
  .add 1 <| Reads.token fun a b => Reads.token fun c d => Reads.pure rfl fun k ls => h k a b c d ls

lemma reads_negativeInt (text : List Char) (digits : String) :
    Reads (operand text) 1 [.symbol "-", .int digits] (· = intLiteral digits true) anyToken :=
  reads_minus fun _ _ _ _ _ _ => by
    rw [operand.eq_def]
    rfl

lemma reads_negativeReal (text : List Char) (s : String) :
    Reads (operand text) 1 [.symbol "-", .real s] (· = realLiteralOf s true) anyToken :=
  reads_minus fun _ _ _ _ _ _ => by
    rw [operand.eq_def]
    rfl

lemma reads_column (text : List Char) (row column : String)
    (h : ∀ a b ls, nameOf (⟨t, a, b⟩ :: ls) = some (column, ls)) :
    Reads (operand text) 2 [.name row true, .symbol ".", t]
      (· = .column (some row) column false) anyToken := by
  refine .add 2 <| Reads.token fun a b => Reads.token fun c d => Reads.token fun c' d' =>
    Reads.pure rfl fun k ls => ?_
  rw [operand.eq_def]
  simp [columnOrCall, symbol_self, h]

lemma reads_columnTokens (text : List Char) (row column : String) :
    Reads (operand text) 2 (columnTokens row column) (· = .column (some row) column false)
      anyToken :=
  reads_column text row column fun _ _ _ => rfl

lemma reads_principal (text : List Char) :
    Reads (operand text) 2 [.word "tg_principal", .symbol "(", .symbol ")"]
      (· = .call "tg_principal" []) anyToken := by
  refine .add 2 <| Reads.token fun a b => Reads.token fun c d => Reads.token fun c' d' =>
    Reads.pure rfl fun k ls => ?_
  have hnull : (upper "tg_principal" == "NULL") = false := by decide
  have hcast : (upper "tg_principal" == "CAST") = false := by decide
  have hbare : reserved.contains (upper "tg_principal") = false := by decide
  have hdot : symbol "." (⟨.symbol "(", c, d⟩ :: ⟨.symbol ")", c', d'⟩ :: ls) = none := by
    simp [symbol_cons]
  rw [operand.eq_def]
  simp only [hnull, hcast, hbare, Bool.false_and, Bool.false_eq_true, if_false]
  simp [columnOrCall, hdot, symbol_self]

section

variable {text : List Char} {fuel : Nat} {ts us : List Token} {P Q : Expr → Prop}

lemma reads_paren (h : Reads (expr text) fuel ts P endsOr) :
    Reads (operand text) (fuel + 1) (Token.symbol "(" :: ts ++ [Token.symbol ")"]) P anyToken := by
  refine .add 1 <| Reads.token fun a b k hk ls more hls _ => ?_
  obtain ⟨e, ls₁, hread, he, hls₁⟩ :=
    h k hk ls _ (hls.trans (List.append_assoc ..)) endsOr_close
  obtain ⟨c, d, rest, rfl, hrest⟩ := map_token_eq_cons.mp hls₁
  refine ⟨e, rest, ?_, he, hrest⟩
  rw [operand.eq_def]
  simp [hread, symbol_self]

lemma reads_cast (h : Reads (expr text) fuel ts P endsOr) :
    Reads (operand text) (fuel + 1)
      ([Token.word "CAST", .symbol "("] ++ ts ++ [Token.word "AS", .word "TEXT", .symbol ")"])
      (fun e => ∃ x, P x ∧ e = .cast x "TEXT") anyToken := by
  refine .add 1 <| Reads.token fun a b => Reads.token fun c d k hk ls more hls _ => ?_
  obtain ⟨e, ls₁, hread, he, hls₁⟩ := h k hk ls _ (hls.trans (List.append_assoc ..)) endsOr_as
  simp only [List.cons_append, List.nil_append, map_token_eq_cons] at hls₁
  obtain ⟨a₁, b₁, _, rfl, a₂, b₂, _, rfl, a₃, b₃, rest, rfl, hrest⟩ := hls₁
  refine ⟨.cast e "TEXT", rest, ?_, ⟨e, he, rfl⟩, hrest⟩
  have hnull : (upper "CAST" == "NULL") = false := by decide
  have hcast : (upper "CAST" == "CAST") = true := by decide
  have hbare : reserved.contains (upper "TEXT") = false := by decide
  have htype : typeWords (⟨.word "TEXT", a₂, b₂⟩ :: ⟨.symbol ")", a₃, b₃⟩ :: rest) =
      (["TEXT"], ⟨.symbol ")", a₃, b₃⟩ :: rest) := by
    simp only [typeWords, hbare, Bool.false_eq_true, if_false]
  have hone : String.intercalate " " ["TEXT"] = "TEXT" := by decide
  have has : (upper "AS" == "AS") = true := by decide
  rw [operand.eq_def]
  simp [hnull, hcast, symbol_self, hread, keyword_word has, htype, hone]

end

/-! ### Comparisons -/

section

variable {text : List Char} {fuel : Nat} {ts us : List Token} {P Q : Expr → Prop}

/-- The first token is none of the words that start a negation. -/
def startsOperand (ts : List Token) : Bool := ts.head?.any fun t => !t.isWord "NOT"

/-- The operand that a comparison starts with. -/
lemma negation_of_ordered (h : Reads (ordered text) fuel ts P endsOrder) (hk : fuel ≤ k)
    (hts : startsOperand ts = true) (hls : ls.map Lexeme.token = ts ++ more)
    (hmore : more.head?.all endsOrder = true) :
    ∃ e rest, P e ∧ rest.map Lexeme.token = more ∧
      negation text (k + 1) ls = equalities text k e rest := by
  obtain ⟨e, rest, hread, he, hrest⟩ := h k hk ls more hls hmore
  have hkeyword : keyword "NOT" ls = none := by
    refine keyword_eq_none ?_
    rw [hls]
    exact all_head?_append hts
  refine ⟨e, rest, he, hrest, ?_⟩
  rw [negation, hkeyword]
  simp [hread]

lemma reads_negation (h : Reads (ordered text) fuel ts P endsOrder)
    (hts : startsOperand ts = true) :
    Reads (negation text) (fuel + 2) ts P endsEquality := by
  refine .add 2 fun k hk ls more hls hmore => ?_
  have horder : more.head?.all endsOrder = true := (all_head?_and (all_head?_and hmore).1).1
  obtain ⟨e, rest, he, rfl, hread⟩ := negation_of_ordered (k := k + 1) h (by omega) hts hls horder
  exact ⟨e, rest, by rw [hread, equalities_of_ends hmore], he, rfl⟩

lemma reads_equation (hleft : Reads (ordered text) fuel ts P endsOrder)
    (hts : startsOperand ts = true) (hright : Reads (ordered text) fuel us Q endsOrder) :
    Reads (negation text) (fuel + 3) (ts ++ .symbol "=" :: us)
      (fun e => ∃ x y, P x ∧ Q y ∧ e = .compare .eq x y) endsEquality := by
  refine .add 3 fun k hk ls more hls hmore => ?_
  rw [List.append_assoc, List.cons_append] at hls
  obtain ⟨x, ls₁, hx, hls₁, hread⟩ :=
    negation_of_ordered (k := k + 2) hleft (by omega) hts hls (by rfl)
  obtain ⟨a, b, ls₂, rfl, hls₂⟩ := map_token_eq_cons.mp hls₁
  have horder : more.head?.all endsOrder = true := (all_head?_and (all_head?_and hmore).1).1
  obtain ⟨y, rest, hy, hright, rfl⟩ := hright (k + 1) (by omega) ls₂ more hls₂ horder
  refine ⟨.compare .eq x y, rest, ?_, ⟨x, y, hx, hright, rfl⟩, rfl⟩
  rw [hread, equalities]
  simp [equalityOf, hy, equalities_of_ends hmore]

lemma reads_isNull (hleft : Reads (ordered text) fuel ts P endsOrder)
    (hts : startsOperand ts = true) :
    Reads (negation text) (fuel + 6) (ts ++ [Token.word "IS", .word "NULL"])
      (fun e => ∃ x, P x ∧ e = .same false x .null) endsEquality := by
  refine .add 6 fun k hk ls more hls hmore => ?_
  rw [List.append_assoc, List.cons_append, List.cons_append, List.nil_append] at hls
  obtain ⟨x, ls₁, hx, hls₁, hread⟩ :=
    negation_of_ordered (k := k + 5) hleft (by omega) hts hls (by rfl)
  obtain ⟨a, b, ls₂, rfl, hls₂⟩ := map_token_eq_cons.mp hls₁
  have horder : more.head?.all endsOrder = true := (all_head?_and (all_head?_and hmore).1).1
  obtain ⟨y, rest, hy, rfl, rfl⟩ :=
    reads_ordered (reads_null text) (k + 4) (by omega) ls₂ more hls₂ horder
  have hpassed : passed ["NOT"] ls₂ = (false, ls₂) := by
    have : keyword "NOT" ls₂ = none := keyword_eq_none (by rw [hls₂]; rfl)
    simp [passed, keywords, this]
  have his : (⟨.word "IS", a, b⟩ : Lexeme).isWord "IS" = true := by
    rw [Lexeme.isWord_eq]
    rfl
  refine ⟨.same false x .null, rest, ?_, ⟨x, hx, rfl⟩, rfl⟩
  rw [hread, equalities]
  simp [equalityOf, his, hpassed, hy, equalities_of_ends hmore]

end

/-! ### Memberships -/

section

variable {text : List Char} {fuel : Nat} {ts us : List Token} {P : Expr → Prop}

/-- What a membership test is, given what its right side is. -/
lemma reads_in {R : Expr → Expr → Prop} (hleft : Reads (ordered text) fuel ts P endsOrder)
    (hts : startsOperand ts = true)
    (hright : ∀ x, Reads (fun k => membership text k false x) fuel us (R x) anyToken) :
    Reads (negation text) (fuel + 3) (ts ++ .word "IN" :: us) (fun e => ∃ x, P x ∧ R x e)
      endsEquality := by
  refine .add 3 fun k hk ls more hls hmore => ?_
  rw [List.append_assoc, List.cons_append] at hls
  obtain ⟨x, ls₁, hx, hls₁, hread⟩ :=
    negation_of_ordered (k := k + 2) hleft (by omega) hts hls (by rfl)
  obtain ⟨a, b, ls₂, rfl, hls₂⟩ := map_token_eq_cons.mp hls₁
  obtain ⟨e, rest, hin, he, rfl⟩ := hright x (k + 1) (by omega) ls₂ more hls₂
    (all_head?_imp (fun _ _ => rfl) hmore)
  have hword : ∀ w, (⟨.word "IN", a, b⟩ : Lexeme).isWord w = (upper "IN" == w) := fun w => rfl
  have his : (upper "IN" == "IS") = false := by decide
  have hisnull : (upper "IN" == "ISNULL") = false := by decide
  have hnotnull : (upper "IN" == "NOTNULL") = false := by decide
  have hself : (upper "IN" == "IN") = true := by decide
  refine ⟨e, rest, ?_, ⟨x, hx, he⟩, rfl⟩
  rw [hread, equalities]
  simp [equalityOf, hword, his, hisnull, hnotnull, hself, hin, equalities_of_ends hmore]

/-- A query starts with one of two words. -/
lemma query_eq_none (hvalues : keyword "VALUES" ls = none) (hselect : keyword "SELECT" ls = none) :
    query text k ls = none := by
  cases k with
  | zero => rw [query]
  | succ k => simp [query, hvalues, hselect]

lemma reads_inQuery {Q : Query → Prop} (h : Reads (query text) fuel us Q endsOr)
    (hus : us.head?.any (· != .symbol ")") = true) (x : Expr) :
    Reads (fun k => membership text k false x) (fuel + 1) (.symbol "(" :: us ++ [Token.symbol ")"])
      (fun e => ∃ q, Q q ∧ e = .inQuery false x q) anyToken := by
  refine .add 1 <| Reads.token fun a b k hk ls more hls _ => ?_
  replace hls := hls.trans (List.append_assoc us _ more)
  have hopen : symbol ")" ls = none := by
    refine symbol_eq_none ?_
    rw [hls]
    exact all_head?_append hus
  obtain ⟨q, ls₁, hread, hq, hls₁⟩ := h k hk ls _ hls endsOr_close
  obtain ⟨c, d, rest, rfl, hrest⟩ := map_token_eq_cons.mp hls₁
  refine ⟨_, rest, ?_, ⟨q, hq, rfl⟩, hrest⟩
  simp [membership, symbol_self, hopen, hread]

/-- A list of expressions in parentheses, the first of which does not look like a query. -/
lemma reads_inItems {Q : List Expr → Prop}
    (h : Reads (exprs text) fuel us Q endsItem)
    (hus : us.head?.any (fun t => t != .symbol ")" && !t.isWord "VALUES" && !t.isWord "SELECT")
      = true) (x : Expr) :
    Reads (fun k => membership text k false x) (fuel + 1) (.symbol "(" :: us ++ [Token.symbol ")"])
      (fun e => ∃ items, Q items ∧ e = .inList false x items) anyToken := by
  refine .add 1 <| Reads.token fun a b k hk ls more hls _ => ?_
  replace hls := hls.trans (List.append_assoc us _ more)
  have hstart : (us ++ .symbol ")" :: more).head?.all
      (fun t => t != .symbol ")" && !t.isWord "VALUES" && !t.isWord "SELECT") = true :=
    all_head?_append hus
  obtain ⟨hhead, hselect⟩ := all_head?_and hstart
  obtain ⟨hclose, hvalues⟩ := all_head?_and hhead
  have hopen : symbol ")" ls = none := symbol_eq_none (by rwa [hls])
  have hquery : query text k ls = none :=
    query_eq_none (keyword_eq_none (by rwa [hls])) (keyword_eq_none (by rwa [hls]))
  obtain ⟨items, ls₁, hread, hitems, hls₁⟩ := h k hk ls _ hls endsItem_close
  obtain ⟨c, d, rest, rfl, hrest⟩ := map_token_eq_cons.mp hls₁
  refine ⟨_, rest, ?_, ⟨items, hitems, rfl⟩, hrest⟩
  simp [membership, symbol_self, hopen, hquery, hread]

lemma reads_inNothing (text : List Char) (x : Expr) :
    Reads (fun k => membership text k false x) 1 [.symbol "(", .symbol ")"]
      (· = .inList false x []) anyToken :=
  .add 1 <| Reads.token fun a b => Reads.token fun c d => Reads.pure rfl fun k ls => by
    simp [membership, symbol_self]

end

/-! ### Chains -/

/-- Tokens and what they are read as. -/
abbrev Piece (α : Type) := List Token × (α → Prop)

/-- Values are what pieces are read as. -/
def AreRead {α : Type} (pieces : List (Piece α)) (as : List α) : Prop :=
  List.Forall₂ (fun p a => p.2 a) pieces as

lemma eq_map_of_forall₂ {α β : Type} {f : β → α} {bs : List β} {as : List α}
    (h : List.Forall₂ (fun b a => a = f b) bs as) : as = bs.map f := by
  induction h with
  | nil => rfl
  | cons hb _ ih => rw [hb, ih, List.map_cons]

/-- Further operands, each behind a word. -/
def IsTail (inner : Nat → Parse Expr) (word : String) (tail : Nat → Parse (List Expr)) : Prop :=
  ∀ k ls, tail (k + 1) ls =
    match keyword word ls with
    | none => some ([], ls)
    | some (_, rest) => do
      let (e, rest) ← inner k rest
      let (es, rest) ← tail k rest
      some (e :: es, rest)

/-- An operand and further ones. -/
def IsChain (inner : Nat → Parse Expr) (tail : Nat → Parse (List Expr)) (wrap : List Expr → Expr)
    (whole : Nat → Parse Expr) : Prop :=
  ∀ k ls, whole (k + 1) ls = do
    let (first, rest) ← inner k ls
    let (more, rest) ← tail k rest
    some (chain wrap (first :: more), rest)

lemma isChain_conjunction (text : List Char) :
    IsChain (negation text) (conjuncts text) .and (conjunction text) := by
  intro k ls
  rw [conjunction]

lemma isChain_expr (text : List Char) :
    IsChain (conjunction text) (disjuncts text) .or (expr text) := by
  intro k ls
  rw [expr]

lemma isTail_conjuncts (text : List Char) :
    IsTail (negation text) "AND" (conjuncts text) := by
  intro k ls
  exact conjuncts.eq_2 text ls k

lemma isTail_disjuncts (text : List Char) :
    IsTail (conjunction text) "OR" (disjuncts text) := by
  intro k ls
  exact disjuncts.eq_2 text ls k

lemma all_head?_flatMap {stop : Token → Bool} (hstop : stop (.word word) = true) {β : Type}
    (bs : List β) {tokens : β → List Token}
    (h : more.head?.all (fun t => stop t && !t.isWord word) = true) :
    (bs.flatMap (fun b => .word word :: tokens b) ++ more).head?.all stop = true := by
  cases bs with
  | nil => exact (all_head?_and h).1
  | cons b rest => exact hstop

/-- Further operands of a connective. -/
lemma reads_tail {stop : Token → Bool} {β : Type} {bs : List β} {tokens : β → List Token}
    {R : β → Expr → Prop} (htail : IsTail inner word tail) (hword : (upper word == word) = true)
    (hstop : stop (.word word) = true)
    (h : ∀ b ∈ bs, Reads inner (16 * (tokens b).length + 8) (tokens b) (R b) stop) :
    Reads tail (16 * (bs.flatMap fun b => .word word :: tokens b).length + 1)
      (bs.flatMap fun b => .word word :: tokens b) (List.Forall₂ R bs)
      (fun t => stop t && !t.isWord word) := by
  induction bs with
  | nil =>
    refine .add 1 fun k hk ls more hls hmore => ?_
    have hnone : keyword word ls = none := by
      refine keyword_eq_none ?_
      rw [hls]
      exact (all_head?_and hmore).2
    exact ⟨[], ls, by rw [htail, hnone], .nil, hls⟩
  | cons b rest ih =>
    refine .add 1 <| Reads.token fun _ _ k hk ls more hls hmore => ?_
    replace hls := hls.trans (List.append_assoc (tokens b) _ more)
    simp only [List.flatMap_cons, List.cons_append, List.length_cons, List.length_append] at hk
    obtain ⟨e, ls₁, hread, he, hls₁⟩ :=
      h b (List.mem_cons_self ..) k (by omega) ls _ hls (all_head?_flatMap hstop rest hmore)
    obtain ⟨es, ls₂, hreads, hes, hls₂⟩ :=
      ih (fun q hq => h q (List.mem_cons_of_mem _ hq)) k (by omega) ls₁ more hls₁ hmore
    refine ⟨e :: es, ls₂, ?_, .cons he hes, hls₂⟩
    rw [htail, keyword_word hword]
    simp [hread, hreads]

lemma intercalate_cons (sep : List Token) (ts : List Token) (tss : List (List Token)) :
    sep.intercalate (ts :: tss) = ts ++ tss.flatMap fun us => sep ++ us := by
  induction tss generalizing ts with
  | nil => simp [List.intercalate]
  | cons us tss ih =>
    rw [List.flatMap_cons, List.append_assoc, ← ih us]
    simp [List.intercalate]

lemma reads_link {whole : Nat → Parse Expr} {stop : Token → Bool} {wrap : List Expr → Expr}
    {fuel : Nat} {ts : List Token} {P : Expr → Prop} (hwhole : IsChain inner tail wrap whole)
    (htail : IsTail inner word tail) (h : Reads inner fuel ts P stop) :
    Reads whole (fuel + 2) ts P (fun t => stop t && !t.isWord word) := by
  refine .add 2 fun k hk ls more hls hmore => ?_
  obtain ⟨hstop, hword⟩ := all_head?_and hmore
  obtain ⟨e, rest, hread, he, hrest⟩ := h (k + 1) (by omega) ls more hls hstop
  have hkeyword : keyword word rest = none := keyword_eq_none (by rwa [hrest])
  refine ⟨e, rest, ?_, he, hrest⟩
  rw [hwhole, hread]
  simp [htail _ _, hkeyword, chain]

lemma reads_chain {whole : Nat → Parse Expr} {stop : Token → Bool} {wrap : List Expr → Expr}
    {β : Type} {bs : List β} {tokens : β → List Token} {R : β → Expr → Prop}
    (hwhole : IsChain inner tail wrap whole) (htail : IsTail inner word tail)
    (hword : (upper word == word) = true) (hstop : stop (.word word) = true) (hne : bs ≠ [])
    (h : ∀ b ∈ bs, Reads inner (16 * (tokens b).length + 8) (tokens b) (R b) stop) :
    Reads whole (16 * ([.word word].intercalate (bs.map tokens)).length + 9)
      ([Token.word word].intercalate (bs.map tokens))
      (fun e => ∃ es, List.Forall₂ R bs es ∧ e = chain wrap es)
      (fun t => stop t && !t.isWord word) := by
  obtain ⟨b, rest, rfl⟩ := List.exists_cons_of_ne_nil hne
  simp only [List.map_cons, intercalate_cons, List.flatMap_map, List.cons_append, List.nil_append]
  refine .add 1 fun k hk ls more hls hmore => ?_
  rw [List.append_assoc] at hls
  rw [List.length_append] at hk
  obtain ⟨e, ls₁, hread, he, hls₁⟩ :=
    h b (List.mem_cons_self ..) k (by omega) ls _ hls (all_head?_flatMap hstop rest hmore)
  obtain ⟨es, ls₂, hreads, hes, hls₂⟩ :=
    reads_tail htail hword hstop (fun q hq => h q (List.mem_cons_of_mem _ hq)) k (by omega) ls₁ more
      hls₁ hmore
  exact ⟨_, ls₂, by rw [hwhole]; simp [hread, hreads], ⟨e :: es, .cons he hes, rfl⟩, hls₂⟩

section

variable {text : List Char} {fuel : Nat} {ts : List Token} {P : Expr → Prop} {β : Type}
  {bs : List β} {tokens : β → List Token} {R : β → Expr → Prop}

lemma reads_conjunction (h : Reads (negation text) fuel ts P endsEquality) :
    Reads (conjunction text) (fuel + 2) ts P endsAnd :=
  reads_link (isChain_conjunction text) (isTail_conjuncts text) h

lemma reads_expr (h : Reads (conjunction text) fuel ts P endsAnd) :
    Reads (expr text) (fuel + 2) ts P endsOr :=
  reads_link (isChain_expr text) (isTail_disjuncts text) h

lemma reads_all (hne : bs ≠ []) (h : ∀ b ∈ bs,
      Reads (negation text) (16 * (tokens b).length + 8) (tokens b) (R b) endsEquality) :
    Reads (conjunction text) (16 * ([.word "AND"].intercalate (bs.map tokens)).length + 9)
      ([Token.word "AND"].intercalate (bs.map tokens))
      (fun e => ∃ es, List.Forall₂ R bs es ∧ e = chain .and es) endsAnd :=
  reads_chain (isChain_conjunction text) (isTail_conjuncts text) (by decide) (by decide) hne h

lemma reads_any (hne : bs ≠ []) (h : ∀ b ∈ bs,
      Reads (conjunction text) (16 * (tokens b).length + 8) (tokens b) (R b) endsAnd) :
    Reads (expr text) (16 * ([.word "OR"].intercalate (bs.map tokens)).length + 9)
      ([Token.word "OR"].intercalate (bs.map tokens))
      (fun e => ∃ es, List.Forall₂ R bs es ∧ e = chain .or es) endsOr :=
  reads_chain (isChain_expr text) (isTail_disjuncts text) (by decide) (by decide) hne h

end

/-! ### Lists -/

/-- Items with commas between them. -/
def IsList {α : Type} (item : Nat → Parse α) (list : Nat → Parse (List α)) : Prop :=
  ∀ k ls, list (k + 1) ls = do
    let (a, rest) ← item k ls
    match symbol "," rest with
    | none => some ([a], rest)
    | some (_, rest) => do
      let (as, rest) ← list k rest
      some (a :: as, rest)

lemma reads_list {α β : Type} {item : Nat → Parse α} {list : Nat → Parse (List α)} {fuel : Nat}
    {stop : Token → Bool} {bs : List β} {tokens : β → List Token} {R : β → α → Prop}
    (hlist : IsList item list) (hstop : stop (.symbol ",") = true) (hne : bs ≠ [])
    (h : ∀ b ∈ bs, Reads item fuel (tokens b) (R b) stop) :
    Reads list (bs.length + fuel) ([.symbol ","].intercalate (bs.map tokens))
      (List.Forall₂ R bs) (fun t => stop t && t != .symbol ",") := by
  induction bs with
  | nil => exact absurd rfl hne
  | cons b rest ih =>
    rw [List.length_cons, Nat.add_right_comm]
    refine .add 1 fun k hk ls more hls hmore => ?_
    cases rest with
    | nil =>
      obtain ⟨a, ls₁, hread, ha, hls₁⟩ := h b (List.mem_cons_self ..) k (by omega) ls more
        (by simpa [List.intercalate] using hls) (all_head?_and hmore).1
      have hcomma : symbol "," ls₁ = none :=
        symbol_eq_none (by rw [hls₁]; exact (all_head?_and hmore).2)
      refine ⟨[a], ls₁, ?_, .cons ha .nil, hls₁⟩
      rw [hlist]
      simp [hread, hcomma]
    | cons c rest =>
      have htokens : [.symbol ","].intercalate ((b :: c :: rest).map tokens) =
          tokens b ++ .symbol "," :: [Token.symbol ","].intercalate ((c :: rest).map tokens) := by
        simp [List.intercalate]
      rw [htokens, List.append_assoc, List.cons_append] at hls
      obtain ⟨a, ls₁, hread, ha, hls₁⟩ :=
        h b (List.mem_cons_self ..) k (by omega) ls _ hls hstop
      obtain ⟨_, _, ls₂, rfl, hls₂⟩ := map_token_eq_cons.mp hls₁
      obtain ⟨as, ls₃, hreads, has, hls₃⟩ := ih (by simp)
        (fun q hq => h q (List.mem_cons_of_mem _ hq)) k (by omega) ls₂ more hls₂ hmore
      refine ⟨a :: as, ls₃, ?_, .cons ha has, hls₃⟩
      rw [hlist]
      simp [hread, symbol_self, hreads]

lemma isList_exprs (text : List Char) : IsList (expr text) (exprs text) := by
  intro k ls
  exact exprs.eq_2 text ls k

lemma isList_outputs (text : List Char) : IsList (output text) (outputs text) := by
  intro k ls
  exact outputs.eq_2 text ls k

lemma isList_names : IsList (fun _ => nameOf) names := by
  intro k ls
  exact names.eq_2 ls k

/-! ### Columns of a result -/

/-- No new name follows. -/
def endsLabel (t : Token) : Bool :=
  !t.isWord "AS" &&
    match t with
    | .word s => reserved.contains (upper s) || joining.contains (upper s)
    | .name _ _ => false
    | .text _ => false
    | _ => true

lemma label?_of_ends (h : (ls.map Lexeme.token).head?.all endsLabel = true) :
    label? ls = some (none, ls) := by
  cases ls with
  | nil => rfl
  | cons l rest =>
    obtain ⟨t, a, b⟩ := l
    simp only [List.map_cons, List.head?_cons, Option.all_some, endsLabel, Bool.and_eq_true,
      Bool.not_eq_true'] at h
    have has : keyword "AS" (⟨t, a, b⟩ :: rest) = none :=
      keyword_eq_none (by simpa using h.1)
    have halias : plainAlias (⟨t, a, b⟩ :: rest) = none := by
      cases t with
      | word s =>
        have hs := h.2
        simp only [Bool.or_eq_true] at hs
        by_cases hjoining : joining.contains (upper s) = true
        · simp only [plainAlias, hjoining, if_true]
        · have hreserved : reserved.contains (upper s) = true := hs.resolve_right hjoining
          simp only [plainAlias, hjoining, nameOf, hreserved, if_true]
          simp
      | name s q => simp at h
      | text s => simp at h
      | _ => rfl
    rw [label?, has, halias]

lemma label?_as {name : String} {c d : Nat} (h : nameOf (⟨t, c, d⟩ :: ls) = some (name, ls)) :
    label? (⟨.word "AS", a, b⟩ :: ⟨t, c, d⟩ :: ls) = some (some name, ls) := by
  rw [label?, keyword_word (by decide)]
  simp [h]

def isStarred : List Token → Bool
  | _ :: .symbol "." :: .symbol "*" :: _ => true
  | _ => false

section

variable {text : List Char} {fuel : Nat} {ts : List Token} {P : Expr → Prop}

/-- A column of a result that is an expression is read as one. -/
lemma output_eq_named (hstar : (ls.map Lexeme.token).head?.all (· != .symbol "*") = true)
    (hstarred : isStarred (ls.map Lexeme.token) = false) :
    output text (k + 1) ls = named text k ls := by
  rw [output, symbol_eq_none hstar]
  rcases ls with _ | ⟨l, _ | ⟨dot, _ | ⟨star, rest⟩⟩⟩
  · rfl
  · rfl
  · rfl
  · have : (dot.isSymbol "." && star.isSymbol "*") = false := by
      rw [Bool.eq_false_iff]
      intro h
      simp only [Bool.and_eq_true, Lexeme.isSymbol, beq_iff_eq] at h
      simp [isStarred, h.1, h.2] at hstarred
    simp [this]

/-- What may follow an expression that is given no name. -/
def endsOutput (t : Token) : Bool := endsOr t && endsLabel t

lemma reads_output (h : Reads (expr text) fuel ts P endsOr)
    (hstar : ∀ more, (ts ++ more).head?.all (· != .symbol "*") = true)
    (hstarred : ∀ more, isStarred (ts ++ more) = false) :
    Reads (output text) (fuel + 2) ts (fun o => ∃ e s, P e ∧ o = .expr e none s) endsOutput := by
  refine .add 2 fun k hk ls more hls hmore => ?_
  obtain ⟨hor, hend⟩ := all_head?_and hmore
  obtain ⟨e, rest, hread, he, rfl⟩ := h k hk ls more hls hor
  have hlabel : label? rest = some (none, rest) := label?_of_ends hend
  rw [output_eq_named (by rw [hls]; exact hstar _) (by rw [hls]; exact hstarred _), named]
  simp only [hread, hlabel, Option.bind_eq_bind, Option.bind_some]
  exact ⟨_, rest, rfl, ⟨e, _, he, rfl⟩, rfl⟩

lemma reads_renamed (h : Reads (expr text) fuel ts P endsOr) {name : String}
    (hname : ∀ a b ls, nameOf (⟨t, a, b⟩ :: ls) = some (name, ls))
    (hstar : ∀ more, (ts ++ Token.word "AS" :: more).head?.all (· != .symbol "*") = true)
    (hstarred : ∀ more, isStarred (ts ++ Token.word "AS" :: more) = false) :
    Reads (output text) (fuel + 2) (ts ++ [Token.word "AS", t])
      (fun o => ∃ e s, P e ∧ o = .expr e (some name) s) anyToken := by
  refine .add 2 fun k hk ls more hls _ => ?_
  rw [List.append_assoc, List.cons_append, List.cons_append, List.nil_append] at hls
  obtain ⟨e, ls₁, hread, he, hls₁⟩ := h k hk ls _ hls endsOr_as
  simp only [map_token_eq_cons] at hls₁
  obtain ⟨a, b, _, rfl, c, d, rest, rfl, hrest⟩ := hls₁
  rw [output_eq_named (by rw [hls]; exact hstar _) (by rw [hls]; exact hstarred _), named]
  simp only [hread, label?_as (hname c d rest), Option.bind_eq_bind, Option.bind_some]
  exact ⟨_, rest, rfl, ⟨e, _, he, rfl⟩, hrest⟩

lemma reads_outputAll (text : List Char) :
    Reads (output text) 1 [.symbol "*"] (· = .all) anyToken :=
  .add 1 <| Reads.token fun a b => Reads.pure rfl fun k ls => by simp [output, symbol_self]

lemma reads_outputAllOf (text : List Char) (row : String) :
    Reads (output text) 1 [.name row true, .symbol ".", .symbol "*"] (· = .allOf row) anyToken :=
  .add 1 <| Reads.token fun a b => Reads.token fun c d => Reads.token fun c' d' =>
    Reads.pure rfl fun k ls => by
    simp [output, symbol_cons, nameOf, Lexeme.isSymbol]

end

lemma reads_outputsOne {text : List Char} {fuel : Nat} {ts : List Token} {O : Output → Prop}
    {stop : Token → Bool} (h : Reads (output text) fuel ts O stop)
    (hstop : stop (.symbol ",") = true) :
    Reads (outputs text) (fuel + 1) ts (fun os => ∃ o, O o ∧ os = [o])
      (fun t => stop t && t != .symbol ",") := by
  have hone : ∀ us ∈ [ts], Reads (output text) fuel (id us) O stop :=
    List.forall_mem_singleton.mpr h
  have hlist :=
    reads_list (R := fun _ => O) (isList_outputs text) hstop (List.cons_ne_nil ts []) hone
  simp only [List.map_cons, List.map_nil, List.intercalate, List.intersperse_singleton,
    List.flatten_cons, List.flatten_nil, List.append_nil, List.length_singleton, id] at hlist
  refine hlist.mono (by omega) ?_ fun _ => id
  intro os hos
  cases hos with
  | cons ho hrest =>
    cases hrest
    exact ⟨_, ho, rfl⟩

/-! ### Queries -/

/-- The first token is none of the words that change what a selection is. -/
def startsOutputs (ts : List Token) : Bool :=
  ts.head?.any fun t => !t.isWord "DISTINCT" && !t.isWord "ALL"

/-- A selection that keeps repeated rows. -/
lemma query_select {text : List Char} (h : startsOutputs (ls.map Lexeme.token) = true) :
    query text (k + 1) (⟨.word "SELECT", a, b⟩ :: ls) = (do
      let (columns, rest) ← outputs text k ls
      let (source, rest) ← fromPart text k rest
      let (filter, rest) ← wherePart text k rest
      some (.select false columns source filter, rest)) := by
  have hfirst : ∀ word, (word = "DISTINCT" ∨ word = "ALL") → passed [word] ls = (false, ls) := by
    intro word hword
    have hnone : keyword word ls = none := by
      refine keyword_eq_none ?_
      cases hls : ls.map Lexeme.token with
      | nil => rfl
      | cons t ts =>
        rw [hls] at h
        rcases hword with rfl | rfl <;> simp_all [startsOutputs]
    simp [passed, keywords, hnone]
  have hselect : keyword "SELECT" (⟨.word "SELECT", a, b⟩ :: ls) = some ((), ls) :=
    keyword_word (by decide)
  have hmode : selectMode ls = (false, ls) := by
    simp [selectMode, hfirst _ (.inl rfl), hfirst _ (.inr rfl)]
  rw [query_eq (keyword_eq_none (by rfl)), hselect]
  simp only [Option.bind_eq_bind, Option.bind_some, hmode]

section

variable {text : List Char} {fuel : Nat} {ts os fs ws : List Token} {P : Expr → Prop}
  {S : Source → Prop} {O : List Output → Prop} {stop stopOutputs stopSource : Token → Bool}

lemma reads_noFrom (text : List Char) :
    Reads (fromPart text) 0 [] (· = .unit) (fun t => !t.isWord "FROM") := by
  intro k _ ls more hls hmore
  refine ⟨.unit, ls, ?_, rfl, hls⟩
  rw [fromPart, keyword_eq_none (by rw [hls]; exact hmore)]

lemma reads_from (h : Reads (source text) fuel ts S stop) :
    Reads (fromPart text) fuel (.word "FROM" :: ts) S stop := by
  refine Reads.token fun a b k hk ls more hls hmore => ?_
  rw [fromPart, keyword_word (by decide)]
  exact h k hk ls more hls hmore

lemma reads_noWhere (text : List Char) :
    Reads (wherePart text) 0 [] (· = .int 1) (fun t => !t.isWord "WHERE") := by
  intro k _ ls more hls hmore
  refine ⟨.int 1, ls, ?_, rfl, hls⟩
  rw [wherePart, keyword_eq_none (by rw [hls]; exact hmore)]

lemma reads_where (h : Reads (expr text) fuel ts P endsOr) :
    Reads (wherePart text) fuel (.word "WHERE" :: ts) P endsOr := by
  refine Reads.token fun a b k hk ls more hls hmore => ?_
  rw [wherePart, keyword_word (by decide)]
  exact h k hk ls more hls hmore

lemma reads_select (houtputs : Reads (outputs text) fuel os O stopOutputs)
    (hsource : Reads (fromPart text) fuel fs S stopSource)
    (hfilter : Reads (wherePart text) fuel ws P stop) (hstart : startsOutputs os = true)
    (hnext : ∀ more : List Token, more.head?.all stop = true →
      (fs ++ (ws ++ more)).head?.all stopOutputs = true ∧
        (ws ++ more).head?.all stopSource = true) :
    Reads (query text) (fuel + 1) (.word "SELECT" :: (os ++ (fs ++ ws)))
      (fun q => ∃ o s f, O o ∧ S s ∧ P f ∧ q = .select false o s f) stop := by
  refine .add 1 <| Reads.token fun a b k hk ls more hls hmore => ?_
  rw [List.append_assoc, List.append_assoc] at hls
  obtain ⟨o, ls₁, hreado, ho, hls₁⟩ := houtputs k hk ls _ hls (hnext more hmore).1
  obtain ⟨s, ls₂, hreads, hs, hls₂⟩ := hsource k hk ls₁ _ hls₁ (hnext more hmore).2
  obtain ⟨f, rest, hreadf, hf, hrest⟩ := hfilter k hk ls₂ more hls₂ hmore
  refine ⟨.select false o s f, rest, ?_, ⟨o, s, f, ho, hs, hf, rfl⟩, hrest⟩
  have hstart' : startsOutputs (ls.map Lexeme.token) = true := by
    rw [hls]
    cases os with
    | nil => simp [startsOutputs] at hstart
    | cons t os => exact hstart
  rw [query_select hstart']
  simp [hreado, hreads, hreadf]

lemma reads_named (text : List Char) (name : String) :
    Reads (source text) 1 [.name name true] (· = .named name none) endsLabel := by
  refine .add 1 <| Reads.token fun a b k _ ls more hls hmore => ⟨_, ls, ?_, rfl, hls⟩
  rw [List.nil_append] at hls
  subst hls
  simp [source, symbol_cons, nameOf, label?_of_ends hmore]

lemma reads_derived {Q : Query → Prop} (h : Reads (query text) fuel ts Q stop)
    (hclose : stop (.symbol ")") = true) (name : String) :
    Reads (source text) (fuel + 1)
      (Token.symbol "(" :: (ts ++ [Token.symbol ")", .word "AS", .name name true]))
      (fun s => ∃ q, Q q ∧ s = .query q (some name)) anyToken := by
  refine .add 1 <| Reads.token fun a b k hk ls more hls _ => ?_
  rw [List.append_assoc] at hls
  obtain ⟨q, ls₁, hread, hq, hls₁⟩ := h k hk ls _ hls hclose
  simp only [List.cons_append, List.nil_append, map_token_eq_cons] at hls₁
  obtain ⟨a₁, b₁, _, rfl, a₂, b₂, _, rfl, a₃, b₃, rest, rfl, hrest⟩ := hls₁
  refine ⟨_, rest, ?_, ⟨q, hq, rfl⟩, hrest⟩
  have hname : nameOf (⟨.name name true, a₃, b₃⟩ :: rest) = some (name, rest) := rfl
  simp [source, symbol_self, hread, label?_as hname]

end

end RowPolicy.Sql
