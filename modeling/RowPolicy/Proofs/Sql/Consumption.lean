import Mathlib.Tactic.Common
import RowPolicy.Sql.Parser

/-!
# What the parser passes

The parser reads tokens from the left and never passes characters that form no token. So a text
with such characters in its only statement is refused, whatever stands around them.
-/

namespace RowPolicy.Sql

/-- What is left behind legal tokens. -/
def Behind (ls rest : List Lexeme) : Prop :=
  ∃ read, ls = read ++ rest ∧ ∀ l ∈ read, l.token ≠ .illegal

namespace Behind

lemma refl (ls : List Lexeme) : Behind ls ls := ⟨[], rfl, by simp⟩

lemma trans {ls ms rest : List Lexeme} (h : Behind ls ms) (h' : Behind ms rest) :
    Behind ls rest := by
  obtain ⟨read, rfl, hread⟩ := h
  obtain ⟨more, rfl, hmore⟩ := h'
  refine ⟨read ++ more, by rw [List.append_assoc], fun l hl => ?_⟩
  rcases List.mem_append.mp hl with hl | hl
  · exact hread l hl
  · exact hmore l hl

lemma cons {l : Lexeme} {ls rest : List Lexeme} (hl : l.token ≠ .illegal) (h : Behind ls rest) :
    Behind (l :: ls) rest :=
  trans ⟨[l], rfl, by simpa using hl⟩ h

lemma one {l : Lexeme} (ls : List Lexeme) (hl : l.token ≠ .illegal) : Behind (l :: ls) ls :=
  cons hl (refl ls)

end Behind

/-! ### Reading steps -/

/-- A result that leaves what stands behind legal tokens. -/
def Passing {α : Type} (ls : List Lexeme) (r : Option (α × List Lexeme)) : Prop :=
  ∀ a rest, r = some (a, rest) → Behind ls rest

/-- Reading steps that pass legal tokens only. -/
def Passes {α : Type} (p : Parse α) : Prop := ∀ ls, Passing ls (p ls)

lemma Passes.behind {α : Type} {p : Parse α} (hp : Passes p) {ls rest : List Lexeme} {a : α}
    (h : p ls = some (a, rest)) : Behind ls rest :=
  hp ls a rest h

namespace Passing

variable {α β : Type} {ls ms rest : List Lexeme} {a : α}

lemma done (h : Behind ls rest) : Passing ls (some (a, rest)) := by
  rintro _ _ ⟨⟩
  exact h

lemma here : Passing ls (some (a, ls)) := done (.refl ls)

lemma fail : Passing ls (none : Option (α × List Lexeme)) := nofun

lemma bind {p : Parse β} {f : β × List Lexeme → Option (α × List Lexeme)} (hp : Passes p)
    (hf : ∀ b ms, Passing ms (f (b, ms))) : Passing ls (p ls >>= f) := by
  intro a rest h
  obtain ⟨⟨b, ms⟩, hb, h⟩ := Option.bind_eq_some_iff.mp h
  exact (hp.behind hb).trans (hf b ms a rest h)

lemma map {p : Parse β} {f : β → α} (hp : Passes p) :
    Passing ls ((p ls).map fun r => (f r.1, r.2)) := by
  intro a rest h
  obtain ⟨⟨b, ms⟩, hb, h⟩ := Option.map_eq_some_iff.mp h
  cases h
  exact hp.behind hb

lemma orElse {x y : Option (α × List Lexeme)} (hx : Passing ls x) (hy : Passing ls y) :
    Passing ls (x <|> y) := by
  cases x with
  | none => exact hy
  | some b => exact hx

end Passing

lemma Behind.then {α : Type} {ls ms : List Lexeme} {r : Option (α × List Lexeme)}
    (h : Behind ls ms) (hr : Passing ms r) : Passing ls r :=
  fun a rest heq => h.trans (hr a rest heq)

/-! ### Words and names -/

lemma Lexeme.legal_of_isWord {l : Lexeme} {k : String} (h : l.isWord k = true) :
    l.token ≠ .illegal := by
  intro hillegal
  simp [isWord, hillegal] at h

lemma Lexeme.legal_of_isSymbol {l : Lexeme} {s : String} (h : l.isSymbol s = true) :
    l.token ≠ .illegal := by
  intro hillegal
  simp [isSymbol, hillegal] at h

lemma passes_keyword {k : String} : Passes (keyword k) := fun ls => by
  cases ls with
  | nil => exact .fail
  | cons l ls =>
    rw [keyword]
    split
    · next hl => exact .done (.one ls (Lexeme.legal_of_isWord hl))
    · exact .fail

lemma passes_symbol {s : String} : Passes (symbol s) := fun ls => by
  cases ls with
  | nil => exact .fail
  | cons l ls =>
    rw [symbol]
    split
    · next hl => exact .done (.one ls (Lexeme.legal_of_isSymbol hl))
    · exact .fail

/-- Items with commas between them pass legal tokens only if one item and the others do. -/
lemma Passes.commas {α β : Type} {ls : List Lexeme} {p : Parse β} (hp : Passes p) (last : α)
    (f : β → α) : Passing ls (match symbol "," ls with
      | none => some (last, ls)
      | some (_, rest) => do
        let (more, rest) ← p rest
        some (f more, rest)) := by
  split
  · exact .here
  · next hcomma => exact (passes_symbol.behind hcomma).then (.bind hp fun _ _ => .here)

lemma passes_keywords {ks : List String} : Passes (keywords ks) := fun ls => by
  induction ks generalizing ls with
  | nil => exact .here
  | cons k ks ih =>
    rw [keywords]
    split
    · next hk => exact (passes_keyword.behind hk).then (ih _)
    · exact .fail

lemma behind_passed (ks : List String) (ls : List Lexeme) : Behind ls (passed ks ls).2 := by
  unfold passed
  split
  · next h => exact passes_keywords.behind h
  · exact .refl _

lemma passes_nameOf : Passes nameOf := fun ls => by
  unfold nameOf
  split
  · split
    · exact .fail
    · exact .done (.one _ (by simp))
  · exact .done (.one _ (by simp))
  · exact .done (.one _ (by simp))
  · exact .fail

lemma passes_plainAlias : Passes plainAlias := fun ls => by
  unfold plainAlias
  split
  · split
    · exact .fail
    · exact passes_nameOf _
  · exact passes_nameOf ls

lemma passes_label? : Passes label? := fun ls => by
  unfold label?
  split
  · next has => exact (passes_keyword.behind has).then (.map passes_nameOf)
  · split
    · next halias => exact .done (passes_plainAlias.behind halias)
    · exact .here

lemma behind_typeWords (ls : List Lexeme) : Behind ls (typeWords ls).2 := by
  fun_induction typeWords ls with
  | case1 s a b rest hreserved => exact .refl _
  | case2 s a b rest hreserved more rest' heq ih =>
    rw [heq] at ih
    exact .cons (by simp) ih
  | case3 s q a b rest more rest' heq ih =>
    rw [heq] at ih
    exact .cons (by simp) ih
  | case4 ls => exact .refl _

lemma behind_skipParens {depth : Nat} {ls rest : List Lexeme}
    (h : skipParens depth ls = some rest) : Behind ls rest := by
  fun_induction skipParens depth ls with
  | case1 depth => cases h
  | case2 depth l ls hillegal => cases h
  | case3 depth l ls hlegal hopen ih => exact .cons (by simp_all) (ih h)
  | case4 l ls hlegal hopen hclose =>
    cases h
    exact .one _ (by simp_all)
  | case5 l ls hlegal hopen hclose depth ih => exact .cons (by simp_all) (ih h)
  | case6 depth l ls hlegal hopen hclose ih => exact .cons (by simp_all) (ih h)

/-! ### Parts of a selection -/

def selectMode (ls : List Lexeme) : Bool × List Lexeme :=
  let (distinct, rest) := passed ["DISTINCT"] ls
  (distinct, if distinct then rest else (passed ["ALL"] rest).2)

def fromPart (text : List Char) (k : Nat) : Parse Source := fun ls =>
  match keyword "FROM" ls with
  | none => some (.unit, ls)
  | some (_, rest) => source text k rest

def wherePart (text : List Char) (k : Nat) : Parse Expr := fun ls =>
  match keyword "WHERE" ls with
  | none => some (.int 1, ls)
  | some (_, rest) => expr text k rest

lemma query_eq {text : List Char} {k : Nat} {ls : List Lexeme}
    (h : keyword "VALUES" ls = none) :
    query text (k + 1) ls = (do
      let (_, rest) ← keyword "SELECT" ls
      let (columns, more) ← outputs text k (selectMode rest).2
      let (source, more) ← fromPart text k more
      let (filter, more) ← wherePart text k more
      some (.select (selectMode rest).1 columns source filter, more)) := by
  rw [query, h]
  cases keyword "SELECT" ls with
  | none => rfl
  | some r =>
    simp only [Option.bind_eq_bind, Option.bind_some, selectMode]
    have hmode : (if (passed ["DISTINCT"] r.2).1 = true then (false, (passed ["DISTINCT"] r.2).2)
        else passed ["ALL"] (passed ["DISTINCT"] r.2).2).2 =
        if (passed ["DISTINCT"] r.2).1 = true then (passed ["DISTINCT"] r.2).2
        else (passed ["ALL"] (passed ["DISTINCT"] r.2).2).2 := by
      split <;> rfl
    rw [hmode]
    congr 1
    funext columns
    simp only [fromPart]
    cases keyword "FROM" columns.2 with
    | none =>
      simp only [Option.bind_some, wherePart]
      cases keyword "WHERE" columns.2 <;> rfl
    | some u =>
      simp only
      congr 1
      funext source
      simp only [wherePart]
      cases keyword "WHERE" source.2 <;> rfl

/-! ### Expressions and queries -/

/-- With some fuel, every reading step of an expression or a query passes legal tokens only. -/
structure PassesAt (text : List Char) (k : Nat) : Prop where
  expr : Passes (expr text k)
  disjuncts : Passes (disjuncts text k)
  conjunction : Passes (conjunction text k)
  conjuncts : Passes (conjuncts text k)
  negation : Passes (negation text k)
  equalities : ∀ left, Passes (equalities text k left)
  membership : ∀ negated left, Passes (membership text k negated left)
  exprs : Passes (exprs text k)
  ordered : Passes (ordered text k)
  orderings : ∀ left, Passes (orderings text k left)
  operand : Passes (operand text k)
  columnOrCall : ∀ first quoted callable, Passes (columnOrCall text k first quoted callable)
  query : Passes (query text k)
  valueRows : Passes (valueRows text k)
  outputs : Passes (outputs text k)
  output : Passes (output text k)
  named : Passes (named text k)
  source : Passes (source text k)

namespace PassesAt

variable {text : List Char} {k : Nat}

lemma zero : PassesAt text 0 := by
  constructor
  all_goals
    intros
    intro ls a rest h
    simp only [Sql.expr, Sql.disjuncts, Sql.conjunction, Sql.conjuncts, Sql.negation,
      Sql.equalities, Sql.membership, Sql.exprs, Sql.ordered, Sql.orderings, Sql.operand,
      Sql.columnOrCall, Sql.query, Sql.valueRows, Sql.outputs, Sql.output, Sql.named, Sql.source,
      reduceCtorEq] at h

section

variable (ih : PassesAt text k)
include ih

lemma equalities_succ (left : Expr) : Passes (Sql.equalities text (k + 1) left) := fun ls => by
  cases ls with
  | nil =>
    rw [Sql.equalities]
    exact .here
  | cons l ls =>
    rw [Sql.equalities]
    dsimp only
    split
    · next op hop =>
      have hl : l.token ≠ .illegal := fun hillegal => by simp [hillegal, equalityOf] at hop
      exact (Behind.one ls hl).then (.bind ih.ordered fun _ ms => ih.equalities _ ms)
    split_ifs with his hisnull hnotnull hin hnot
    · exact (Behind.cons (Lexeme.legal_of_isWord his) (behind_passed _ _)).then
        (.bind ih.ordered fun _ ms => ih.equalities _ ms)
    · exact (Behind.one ls (Lexeme.legal_of_isWord hisnull)).then (ih.equalities _ _)
    · exact (Behind.one ls (Lexeme.legal_of_isWord hnotnull)).then (ih.equalities _ _)
    · exact (Behind.one ls (Lexeme.legal_of_isWord hin)).then
        (.bind (ih.membership _ _) fun _ ms => ih.equalities _ ms)
    · refine (Behind.one ls (Lexeme.legal_of_isWord hnot)).then ?_
      split
      · next hnext =>
        exact (passes_keyword.behind hnext).then
          (.bind (ih.membership _ _) fun _ ms => ih.equalities _ ms)
      · next hnull => exact (passes_keyword.behind hnull).then (ih.equalities _ _)
      · exact .fail
    · exact .here

lemma operand_succ : Passes (Sql.operand text (k + 1)) := fun ls => by
  cases ls with
  | nil => rw [Sql.operand.eq_def]; exact .fail
  | cons l ls =>
    rw [Sql.operand.eq_def]
    dsimp only
    split
    case h_1 hl | h_2 hl | h_3 hl | h_4 hl | h_5 hl => exact .done (.one ls (by simp [hl]))
    case h_6 hl => exact (Behind.one ls (by simp [hl])).then (ih.columnOrCall _ _ _ _)
    case h_7 hl =>
      refine (Behind.one ls (by simp [hl])).then ?_
      split_ifs
      · exact .here
      · exact .bind passes_symbol fun _ _ => .bind ih.expr fun _ _ => .bind passes_keyword
          fun _ _ => (behind_typeWords _).then (.bind passes_symbol fun _ _ => .here)
      · exact .fail
      · exact ih.columnOrCall _ _ _ _
    case h_8 hl =>
      exact (Behind.one ls (by simp [hl])).then
        (.bind ih.expr fun _ _ => .bind passes_symbol fun _ _ => .here)
    -- A sign, and a numeral behind it.
    case h_9 hl | h_10 hl =>
      refine (Behind.one ls (by simp [hl])).then ?_
      split
      · exact .done (.one _ (by simp))
      · exact .done (.one _ (by simp))
      · exact .fail
    case h_11 => exact .fail

lemma query_succ : Passes (Sql.query text (k + 1)) := fun ls => by
  cases hvalues : keyword "VALUES" ls with
  | some r =>
    rw [Sql.query, hvalues]
    exact (passes_keyword.behind hvalues).then (.bind ih.valueRows fun _ _ => .here)
  | none =>
    rw [query_eq hvalues]
    have hmode : ∀ ms, Behind ms (selectMode ms).2 := fun ms => by
      simp only [selectMode]
      refine (behind_passed ["DISTINCT"] ms).trans ?_
      split
      · exact .refl _
      · exact behind_passed _ _
    have hfrom : Passes (fromPart text k) := fun ms => by
      unfold fromPart
      split
      · exact .here
      · next hword => exact (passes_keyword.behind hword).then (ih.source _)
    have hwhere : Passes (wherePart text k) := fun ms => by
      unfold wherePart
      split
      · exact .here
      · next hword => exact (passes_keyword.behind hword).then (ih.expr _)
    exact .bind passes_keyword fun _ ms => (hmode ms).then (.bind ih.outputs fun _ _ =>
      .bind hfrom fun _ _ => .bind hwhere fun _ _ => .here)

lemma output_succ : Passes (Sql.output text (k + 1)) := fun ls => by
  rw [Sql.output]
  split
  · next hstar => exact .done (passes_symbol.behind hstar)
  split
  · next dot star ms hdrop =>
    split_ifs with hallOf
    · cases ls with
      | nil => simp at hdrop
      | cons l ls =>
        obtain rfl : ls = dot :: star :: ms := by simpa using hdrop
        obtain ⟨hdot, hstar⟩ := Bool.and_eq_true_iff.mp hallOf
        intro a rest h
        obtain ⟨⟨row, ls₁⟩, hname, heq⟩ := Option.map_eq_some_iff.mp h
        cases heq
        refine .cons (fun hillegal => ?_) (.cons (Lexeme.legal_of_isSymbol hdot)
          (.one _ (Lexeme.legal_of_isSymbol hstar)))
        obtain ⟨t, a, b⟩ := l
        obtain rfl : t = .illegal := hillegal
        simp [nameOf] at hname
    · exact ih.named ls
  · exact ih.named ls

/-- With one more step of fuel, the steps pass legal tokens only if those that they call do. -/
lemma succ : PassesAt text (k + 1) where
  expr := fun ls => by
    rw [Sql.expr]
    exact .bind ih.conjunction fun _ _ => .bind ih.disjuncts fun _ _ => .here
  disjuncts := fun ls => by
    rw [Sql.disjuncts]
    split
    · exact .here
    · next hword =>
      exact (passes_keyword.behind hword).then
        (.bind ih.conjunction fun _ _ => .bind ih.disjuncts fun _ _ => .here)
  conjunction := fun ls => by
    rw [Sql.conjunction]
    exact .bind ih.negation fun _ _ => .bind ih.conjuncts fun _ _ => .here
  conjuncts := fun ls => by
    rw [Sql.conjuncts]
    split
    · exact .here
    · next hword =>
      exact (passes_keyword.behind hword).then
        (.bind ih.negation fun _ _ => .bind ih.conjuncts fun _ _ => .here)
  negation := fun ls => by
    rw [Sql.negation]
    split
    · next hword => exact (passes_keyword.behind hword).then (.bind ih.negation fun _ _ => .here)
    · exact .bind ih.ordered fun e ms => ih.equalities e ms
  equalities := ih.equalities_succ
  membership negated left := fun ls => by
    rw [Sql.membership]
    -- Between the brackets there is nothing, a query or a list of expressions.
    refine .bind passes_symbol fun _ ms => ?_
    dsimp only
    split
    · next hclose => exact .done (passes_symbol.behind hclose)
    split
    · next hquery => exact (ih.query.behind hquery).then (.bind passes_symbol fun _ _ => .here)
    · exact .bind ih.exprs fun _ _ => .bind passes_symbol fun _ _ => .here
  exprs := fun ls => by
    rw [Sql.exprs]
    exact .bind ih.expr fun _ _ => ih.exprs.commas _ _
  ordered := fun ls => by
    rw [Sql.ordered]
    exact .bind ih.operand fun e ms => ih.orderings e ms
  orderings left := fun ls => by
    cases ls with
    | nil => rw [Sql.orderings]; exact .here
    | cons l ls =>
      rw [Sql.orderings]
      dsimp only
      split
      · exact .here
      · next op hop =>
        have hl : l.token ≠ .illegal := fun hillegal => by simp [hillegal, orderOf] at hop
        exact (Behind.one ls hl).then (.bind ih.operand fun _ ms => ih.orderings _ ms)
  operand := ih.operand_succ
  columnOrCall first quoted callable := fun ls => by
    rw [Sql.columnOrCall]
    split
    · next hdot => exact (passes_symbol.behind hdot).then (.bind passes_nameOf fun _ _ => .here)
    -- A name is that of a function only if a bracket follows.
    split_ifs
    · split
      · exact .here
      · next hopen =>
        refine (passes_symbol.behind hopen).then ?_
        split
        · next hclose => exact .done (passes_symbol.behind hclose)
        · exact .bind ih.exprs fun _ _ => .bind passes_symbol fun _ _ => .here
    · exact .here
  query := ih.query_succ
  valueRows := fun ls => by
    rw [Sql.valueRows]
    exact .bind passes_symbol fun _ _ => .bind ih.exprs fun _ _ => .bind passes_symbol
      fun _ _ => ih.valueRows.commas _ _
  outputs := fun ls => by
    rw [Sql.outputs]
    exact .bind ih.output fun _ _ => ih.outputs.commas _ _
  output := ih.output_succ
  named := fun ls => by
    rw [Sql.named]
    exact .bind ih.expr fun _ _ => .bind passes_label? fun _ _ => .here
  source := fun ls => by
    rw [Sql.source]
    split
    · next hopen =>
      exact (passes_symbol.behind hopen).then (.bind ih.query fun _ _ =>
        .bind passes_symbol fun _ _ => .bind passes_label? fun _ _ => .here)
    · exact .bind passes_nameOf fun _ _ => .bind passes_label? fun _ _ => .here

end

lemma all (text : List Char) (k : Nat) : PassesAt text k := by
  induction k with
  | zero => exact zero
  | succ k ih => exact ih.succ

end PassesAt

/-! ### Statements -/

section

variable {text : List Char} {k : Nat}

lemma passes_names : Passes (names k) := fun ls => by
  induction k generalizing ls with
  | zero =>
    rw [names]
    exact .fail
  | succ k ih =>
    rw [names]
    exact .bind passes_nameOf fun _ _ => Passes.commas ih _ _

lemma passes_changes : Passes (changes text k) := fun ls => by
  induction k generalizing ls with
  | zero =>
    rw [changes]
    exact .fail
  | succ k ih =>
    rw [changes]
    exact .bind passes_nameOf fun _ _ => .bind passes_symbol fun _ _ =>
      .bind (PassesAt.all text k).expr fun _ _ => Passes.commas ih _ _

lemma passes_filter? : Passes (filter? text k) := fun ls => by
  unfold filter?
  split
  · exact .here
  · next hword => exact (passes_keyword.behind hword).then ((PassesAt.all text k).expr _)

lemma passes_insertColumns : Passes (insertColumns k) := fun ls => by
  unfold insertColumns
  split
  · exact .here
  · next hopen =>
    exact (passes_symbol.behind hopen).then
      (.bind passes_names fun _ _ => .bind passes_symbol fun _ _ => .here)

lemma passes_insertionStart : Passes insertionStart := fun ls => by
  unfold insertionStart
  split
  · next hinsert => exact .done (passes_keywords.behind hinsert)
  · intro a rest h
    obtain ⟨⟨u, ms⟩, hstart, heq⟩ := Option.map_eq_some_iff.mp h
    cases heq
    refine Passing.orElse (fun _ _ hor => ?_) (passes_keywords ls) _ _ hstart
    obtain ⟨word, -, hword⟩ := List.exists_of_findSome?_eq_some hor
    exact passes_keywords.behind hword

lemma passes_insertion : Passes (insertion text k) := fun ls => by
  unfold insertion
  refine .bind passes_insertionStart fun _ _ => .bind passes_nameOf fun _ _ =>
    .bind passes_insertColumns fun _ ms => ?_
  dsimp only
  split
  · next hdefault => exact .done (passes_keywords.behind hdefault)
  · exact .bind (PassesAt.all text k).query fun _ _ => .here

lemma passes_updating : Passes (updating text k) := fun _ =>
  .bind passes_keyword fun _ _ => .bind passes_nameOf fun _ _ => .bind passes_keyword fun _ _ =>
    .bind passes_changes fun _ _ => .bind passes_filter? fun _ _ => .here

lemma passes_deletion : Passes (deletion text k) := fun _ =>
  .bind passes_keywords fun _ _ => .bind passes_nameOf fun _ _ => .bind passes_filter? fun _ _ =>
    .here

lemma passes_viewCreation : Passes (viewCreation text k) := fun _ =>
  .bind passes_keywords fun _ _ => (behind_passed _ _).then (.bind passes_nameOf fun _ _ =>
    .bind passes_keyword fun _ _ => .bind (PassesAt.all text k).query fun _ _ => .here)

lemma passing_skipParens {α : Type} {a : α} (ls : List Lexeme) :
    Passing ls (skipParens 0 ls >>= fun rest => some (a, rest)) := by
  intro b rest h
  obtain ⟨ms, hskip, heq⟩ := Option.bind_eq_some_iff.mp h
  cases heq
  exact behind_skipParens hskip

lemma passes_tableCreation : Passes tableCreation := fun _ =>
  .bind passes_keywords fun _ _ => (behind_passed _ _).then (.bind passes_nameOf fun _ _ =>
    .bind passes_symbol fun _ ms => passing_skipParens ms)

lemma passes_indexCreation : Passes indexCreation := fun _ =>
  .bind (p := fun ls =>
      keywords ["CREATE", "INDEX"] ls <|> keywords ["CREATE", "UNIQUE", "INDEX"] ls)
    (fun _ => .orElse (passes_keywords _) (passes_keywords _)) fun _ _ =>
    (behind_passed _ _).then (.bind passes_nameOf fun _ _ => .bind passes_keyword fun _ _ =>
      .bind passes_nameOf fun _ _ => .bind passes_symbol fun _ ms => passing_skipParens ms)

lemma passes_removal {kind : String} {wrap : String → Bool → Statement} :
    Passes (removal kind wrap) := fun _ =>
  .bind passes_keywords fun _ _ => (behind_passed _ _).then (.bind passes_nameOf fun _ _ => .here)

lemma passes_transaction : Passes transaction := fun _ =>
  .bind (p := fun ls => keyword "BEGIN" ls <|> keyword "COMMIT" ls <|> keyword "ROLLBACK" ls
      <|> keyword "END" ls)
    (fun _ => .orElse (passes_keyword _) (.orElse (passes_keyword _) (.orElse
      (passes_keyword _) (passes_keyword _)))) fun _ _ =>
    .done ((behind_passed _ _).trans ((behind_passed _ _).trans ((behind_passed _ _).trans
      (behind_passed _ _))))

lemma passes_savepoint : Passes savepoint := fun _ =>
  .bind (p := fun ls => keyword "SAVEPOINT" ls <|> keywords ["RELEASE", "SAVEPOINT"] ls
      <|> keyword "RELEASE" ls)
    (fun _ => .orElse (passes_keyword _) (.orElse (passes_keywords _) (passes_keyword _)))
    fun _ _ => .bind passes_nameOf fun _ _ => .here

lemma passes_upkeep : Passes upkeep := fun _ =>
  .bind (p := fun ls => keyword "ANALYZE" ls <|> keyword "VACUUM" ls <|> keyword "REINDEX" ls)
    (fun _ => .orElse (passes_keyword _) (.orElse (passes_keyword _) (passes_keyword _)))
    fun _ _ => .here

/-- A statement is made of legal tokens. -/
lemma passes_statement : Passes (statement text k) := fun ls => by
  unfold statement
  apply Passing.orElse (.map (PassesAt.all text k).query)
  apply Passing.orElse (passes_insertion ls)
  apply Passing.orElse (passes_updating ls)
  apply Passing.orElse (passes_deletion ls)
  apply Passing.orElse (passes_viewCreation ls)
  apply Passing.orElse (passes_tableCreation ls)
  apply Passing.orElse (passes_indexCreation ls)
  apply Passing.orElse (passes_removal ls)
  apply Passing.orElse (passes_removal ls)
  apply Passing.orElse (passes_transaction ls)
  exact .orElse (passes_savepoint ls) (passes_upkeep ls)

end

end RowPolicy.Sql
