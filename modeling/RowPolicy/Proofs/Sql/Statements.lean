import Mathlib.Data.List.Forall2
import RowPolicy.Proofs.Sql.Parsing

/-!
# Statements of plans

What the statements that enforce a plan are parsed as. A name or a text with a null character in it
cuts its statement off; what is left ends inside quotes and is refused as a whole.
-/

namespace RowPolicy

open Sql

variable {k b : Nat} {ls : List Lexeme} {f : Fragment}

namespace Sql

/-! ### Words of statements -/

lemma writes_createView : Writes "CREATE VIEW ".toList [.word "CREATE", .word "VIEW"] anything :=
  writes_plain (by decide)

lemma writes_deleteFrom : Writes "DELETE FROM ".toList [.word "DELETE", .word "FROM"] anything :=
  writes_plain (by decide)

lemma writes_update : Writes "UPDATE ".toList [.word "UPDATE"] anything := writes_plain (by decide)

lemma writes_set : Writes " SET ".toList [.word "SET"] anything := writes_plain (by decide)

lemma writes_as : Writes " AS ".toList [.word "AS"] anything := writes_plain (by decide)

lemma writes_asSelect : Writes " AS SELECT ".toList [.word "AS", .word "SELECT"] anything :=
  writes_plain (by decide)

lemma writes_from : Writes " FROM ".toList [.word "FROM"] anything := writes_plain (by decide)

lemma writes_where : Writes " WHERE ".toList [.word "WHERE"] anything := writes_plain (by decide)

lemma writes_equals : Writes " = ".toList [.symbol "="] anything := writes_plain (by decide)

/-! ### Texts that are cut off -/

variable {s : String} {P : Statement → Prop} {more : List Char}

lemma parse_of_endsBroken (h : EndsBroken ((lex s).map Lexeme.token)) :
    parse s = .error := by
  obtain ⟨us, htokens, hone⟩ := h
  -- No token is a semicolon, so there is one statement, and it would have to end the text.
  have hsemi : ∀ l ∈ lex s, l.isSymbol ";" = false := by
    intro l hl
    have hmem : l.token ∈ us ++ [Token.illegal] := htokens ▸ List.mem_map_of_mem hl
    rw [Lexeme.isSymbol, beq_eq_false_iff_ne]
    rintro heq
    rw [heq] at hmem
    simp [hone] at hmem
  have hdrop : (lex s).dropWhile (·.isSymbol ";") = lex s := by
    cases hlex : lex s with
    | nil => rfl
    | cons l ls =>
      rw [List.dropWhile_cons_of_neg]
      simpa using hsemi l (by simp [hlex])
  rw [parse, parseFirst, hdrop]
  cases hlex : lex s with
  | nil => simp [hlex] at htokens
  | cons l ls =>
    simp only
    cases hst : statement s.toList (16 * ((l :: ls).length + 1)) (l :: ls) with
    | none => rfl
    | some r =>
      obtain ⟨st, rest⟩ := r
      obtain ⟨read, hread, hlegal⟩ := passes_statement.behind hst
      cases rest with
      | nil =>
        rw [List.append_nil] at hread
        have hmem : Token.illegal ∈ (lex s).map Lexeme.token := by simp [htokens]
        rw [hlex, hread] at hmem
        obtain ⟨m, hm, hillegal⟩ := List.mem_map.mp hmem
        exact absurd hillegal (hlegal m hm)
      | cons m rest =>
        have hm : m.isSymbol ";" = false := hsemi m (by simp [hlex, hread])
        simp [hm]

/-- A text is one statement that has a property, unless a null character cuts it off. -/
def ParsesAs (s : String) (P : Statement → Prop) : Prop :=
  (NoNull s.toList ∧ ∃ st, parse s = .one st [] ∧ P st) ∨ ¬ NoNull s.toList ∧ parse s = .error

lemma ParsesAs.imp {Q : Statement → Prop} (h : ParsesAs s P) (hPQ : ∀ st, P st → Q st) :
    ParsesAs s Q :=
  Or.imp_left (And.imp_right fun ⟨st, hst, hP⟩ => ⟨st, hst, hPQ st hP⟩) h

lemma ParsesAs.eq {st : Statement} (h : ParsesAs s (· = st)) (hs : parse s ≠ .error) :
    parse s = .one st [] := by
  obtain ⟨-, _, hst, rfl⟩ := h.resolve_right fun herror => hs herror.2
  exact hst

/-- A text is parsed as its tokens are read. -/
lemma parse_of_writes {ts : List Token} {next : Char → Bool} {stop : Token → Bool}
    (htext : Writes s.toList ts next)
    (hread : Reads (statement s.toList) (16 * (ts.length + 1)) ts P stop)
    (hts : ts.head?.any (· != .symbol ";") = true) : ParsesAs s P := by
  rcases lex_of_writes htext with ⟨hnull, htokens⟩ | ⟨hnull, hbroken⟩
  · refine .inl ⟨hnull, ?_⟩
    obtain ⟨st, rest, hst, hP, hrest⟩ := hread (16 * (ts.length + 1)) (Nat.le_refl _) (lex s) []
      (by rw [htokens, List.append_nil]) rfl
    rw [List.map_eq_nil_iff] at hrest
    subst hrest
    have hlength : (lex s).length = ts.length := by rw [← htokens, List.length_map]
    refine ⟨st, ?_, hP⟩
    cases hlex : lex s with
    | nil =>
      rw [hlex, List.map_nil] at htokens
      rw [← htokens] at hts
      simp at hts
    | cons l ls =>
      have hl : l.isSymbol ";" = false := by
        rw [hlex, List.map_cons] at htokens
        rw [← htokens] at hts
        simpa [Lexeme.isSymbol] using hts
      rw [parse, parseFirst, hlex, List.dropWhile_cons_of_neg (by simp [hl])]
      rw [hlex] at hst hlength
      simp only [hlength, hst]
  · exact .inr ⟨hnull, parse_of_endsBroken hbroken⟩

/-- A text starts with a statement that has a property, unless it is no statement. -/
def StartsAs (s : String) (P : Statement → Prop) : Prop :=
  (∃ st rest, parse s = .one st rest ∧ P st) ∨ parse s = .error

/-- What holds of every statement that starts with some tokens holds of the statement of a text that
starts with them, unless the text is no statement. -/
lemma parse_of_start {start : List Char} {t : Token} {ts : List Token}
    (htext : s.toList = start ++ more) (hstart : Writes start (t :: ts) anything)
    (ht : t ≠ .symbol ";")
    (hP : ∀ k ls us st rest, 16 * (ls.length + 1) ≤ k → ls.map Lexeme.token = t :: (ts ++ us) →
      statement s.toList k ls = some (st, rest) → P st) :
    StartsAs s P := by
  rcases lex_of_writes_append htext hstart with ⟨us, htokens⟩ | hbroken
  · obtain ⟨a, b, ls, hls, -⟩ := map_token_eq_cons.mp htokens
    have hdrop : (lex s).dropWhile (·.isSymbol ";") = lex s := by
      rw [hls, List.dropWhile_cons_of_neg]
      simpa [Lexeme.isSymbol] using ht
    rw [StartsAs, parse, parseFirst, hdrop, hls]
    rw [hls] at htokens
    simp only
    cases hst : statement s.toList _ (_ :: _) with
    | none => exact .inr rfl
    | some r =>
      obtain ⟨st, rest⟩ := r
      have hst' := hP _ _ us st rest (Nat.le_refl _) htokens hst
      cases rest with
      | nil => exact .inl ⟨st, [], rfl, hst'⟩
      | cons l rest =>
        simp only
        split
        · exact .inl ⟨st, rest, rfl, hst'⟩
        · exact .inr rfl
  · exact .inr (parse_of_endsBroken hbroken)

section

variable {text : List Char} {fuel : Nat} {ts : List Token} {Q : Query → Prop}
  {stop : Token → Bool} {a : Nat}

lemma reads_queryStatement (h : Reads (query text) fuel ts Q stop) :
    Reads (statement text) fuel ts (fun st => ∃ q, Q q ∧ st = .query q) stop := by
  intro k hk ls more hls hmore
  obtain ⟨q, rest, hread, hq, hrest⟩ := h k hk ls more hls hmore
  refine ⟨.query q, rest, ?_, ⟨q, hq, rfl⟩, hrest⟩
  simp [statement, hread]

/-- A word is no other keyword than itself. -/
lemma keyword_other {w word : String} (hw : upper w = w) (hne : w ≠ word) :
    keyword word (⟨.word w, a, b⟩ :: ls) = none := by
  rw [keyword_cons, hw, if_neg (by simpa using hne)]

/-- A statement that starts with `CREATE VIEW` is the creation of a view or none. -/
lemma statement_createView {c d : Nat} :
    statement text k (⟨.word "CREATE", a, b⟩ :: ⟨.word "VIEW", c, d⟩ :: ls) =
      viewCreation text k (⟨.word "CREATE", a, b⟩ :: ⟨.word "VIEW", c, d⟩ :: ls) := by
  have hother : ∀ word, "CREATE" ≠ word →
      keyword word (⟨.word "CREATE", a, b⟩ :: ⟨.word "VIEW", c, d⟩ :: ls) = none :=
    fun _ => keyword_other (by decide)
  have hcreate : keyword "CREATE" (⟨.word "CREATE", a, b⟩ :: ⟨.word "VIEW", c, d⟩ :: ls) =
      some ((), ⟨.word "VIEW", c, d⟩ :: ls) := keyword_word (by decide)
  have hview : ∀ word, "VIEW" ≠ word → keyword word (⟨.word "VIEW", c, d⟩ :: ls) = none :=
    fun _ => keyword_other (by decide)
  simp [statement, query_eq_none (hother "VALUES" (by decide)) (hother "SELECT" (by decide)),
    insertion, insertionStart, updating, deletion, tableCreation, indexCreation, removal,
    transaction, savepoint, upkeep, keywords, hother, hcreate, hview]

lemma viewCreation_eq {name : String} {c d a₁ b₁ a₂ b₂ : Nat} :
    viewCreation text k (⟨.word "CREATE", a, b⟩ :: ⟨.word "VIEW", c, d⟩
      :: ⟨.name name true, a₁, b₁⟩ :: ⟨.word "AS", a₂, b₂⟩ :: ls) = (do
      let (q, rest) ← query text k ls
      some (.createView name false q, rest)) := by
  have hif : keyword "IF" (⟨.name name true, a₁, b₁⟩ :: ⟨.word "AS", a₂, b₂⟩ :: ls) = none :=
    keyword_eq_none rfl
  simp +decide [viewCreation, passed, keywords, keyword_cons, hif, nameOf]

lemma reads_createView (h : Reads (query text) fuel ts Q stop) (name : String) :
    Reads (statement text) fuel
      ([Token.word "CREATE", .word "VIEW", .name name true, .word "AS"] ++ ts)
      (fun st => ∃ q, Q q ∧ st = .createView name false q) stop := by
  intro k hk ls more hls hmore
  simp only [List.cons_append, List.nil_append, map_token_eq_cons] at hls
  obtain ⟨a, b, _, rfl, c, d, _, rfl, a₁, b₁, _, rfl, a₂, b₂, ls, rfl, hls⟩ := hls
  obtain ⟨q, rest, hread, hq, hrest⟩ := h k hk ls more hls hmore
  refine ⟨_, rest, ?_, ⟨q, hq, rfl⟩, hrest⟩
  rw [statement_createView, viewCreation_eq, hread]
  rfl

/-- A text that starts like the creation of a view creates that view, if it is a statement. -/
lemma parse_createView {x : String}
    (htext : s.toList = ("CREATE VIEW " ++ quoteName x ++ " AS ").toList ++ more) :
    StartsAs s (fun st => ∃ q, st = .createView x false q) := by
  have hstart : Writes ("CREATE VIEW " ++ quoteName x ++ " AS ").toList
      [.word "CREATE", .word "VIEW", .name x true, .word "AS"] anything := by
    rw [String.toList_append, String.toList_append]
    exact (writes_createView.append_any (writes_quoteName x)).append writes_as rfl
  refine parse_of_start htext hstart (by decide) fun k ls us st rest _ hls hst => ?_
  simp only [List.cons_append, List.nil_append, map_token_eq_cons] at hls
  obtain ⟨a, b, _, rfl, c, d, _, rfl, a₁, b₁, _, rfl, a₂, b₂, ls, rfl, -⟩ := hls
  rw [statement_createView, viewCreation_eq] at hst
  simp only [Option.bind_eq_bind, Option.bind_eq_some_iff] at hst
  obtain ⟨⟨q, ls₅⟩, hq, heq⟩ := hst
  cases heq
  exact ⟨q, rfl⟩

/-! ### Updates and deletions -/

lemma statement_update :
    statement text k (⟨.word "UPDATE", a, b⟩ :: ls) =
      updating text k (⟨.word "UPDATE", a, b⟩ :: ls) := by
  have hother : ∀ word, "UPDATE" ≠ word → keyword word (⟨.word "UPDATE", a, b⟩ :: ls) = none :=
    fun _ => keyword_other (by decide)
  simp [statement, query_eq_none (hother "VALUES" (by decide)) (hother "SELECT" (by decide)),
    insertion, insertionStart, deletion, viewCreation, tableCreation, indexCreation, removal,
    transaction, savepoint, upkeep, keywords, hother]

lemma statement_delete :
    statement text k (⟨.word "DELETE", a, b⟩ :: ls) =
      deletion text k (⟨.word "DELETE", a, b⟩ :: ls) := by
  have hother : ∀ word, "DELETE" ≠ word → keyword word (⟨.word "DELETE", a, b⟩ :: ls) = none :=
    fun _ => keyword_other (by decide)
  simp [statement, query_eq_none (hother "VALUES" (by decide)) (hother "SELECT" (by decide)),
    insertion, insertionStart, updating, viewCreation, tableCreation, indexCreation, removal,
    transaction, savepoint, upkeep, keywords, hother]

lemma parse_update {x : String}
    (htext : s.toList = ("UPDATE " ++ quoteName x ++ " SET ").toList ++ more) :
    StartsAs s (fun st => ∃ changes filter, st = .update x changes filter) := by
  have hstart : Writes ("UPDATE " ++ quoteName x ++ " SET ").toList
      [.word "UPDATE", .name x true, .word "SET"] anything := by
    rw [String.toList_append, String.toList_append]
    exact (writes_update.append_any (writes_quoteName x)).append writes_set rfl
  refine parse_of_start htext hstart (by decide) fun k ls us st rest _ hls hst => ?_
  simp only [List.cons_append, List.nil_append, map_token_eq_cons] at hls
  obtain ⟨a, b, _, rfl, a₁, b₁, _, rfl, -⟩ := hls
  rw [statement_update, updating, keyword_word (by decide)] at hst
  simp only [Option.bind_eq_bind, Option.bind_eq_some_iff, nameOf, Option.some.injEq] at hst
  obtain ⟨_, rfl, _, hname, _, -, _, -, _, -, heq⟩ := hst
  cases hname
  cases heq
  exact ⟨_, _, rfl⟩

lemma parse_delete {x : String}
    (htext : s.toList = ("DELETE FROM " ++ quoteName x ++ " WHERE ").toList ++ more) :
    StartsAs s (fun st => ∃ filter, st = .delete x filter) := by
  have hstart : Writes ("DELETE FROM " ++ quoteName x ++ " WHERE ").toList
      [.word "DELETE", .word "FROM", .name x true, .word "WHERE"] anything := by
    rw [String.toList_append, String.toList_append]
    exact (writes_deleteFrom.append_any (writes_quoteName x)).append writes_where rfl
  refine parse_of_start htext hstart (by decide) fun k ls us st rest _ hls hst => ?_
  simp only [List.cons_append, List.nil_append, map_token_eq_cons] at hls
  obtain ⟨a, b, _, rfl, c, d, _, rfl, a₁, b₁, _, rfl, -⟩ := hls
  rw [statement_delete] at hst
  simp +decide only [deletion, keywords, keyword_cons, if_true, Option.bind_eq_bind,
    Option.bind_eq_some_iff, nameOf, Option.some.injEq] at hst
  obtain ⟨_, rfl, _, hname, _, -, heq⟩ := hst
  cases hname
  cases heq
  exact ⟨_, rfl⟩

lemma statement_drop :
    statement text k (⟨.word "DROP", a, b⟩ :: ls) =
      (removal "VIEW" .dropView (⟨.word "DROP", a, b⟩ :: ls)).orElse fun _ =>
        removal "TABLE" .dropTable (⟨.word "DROP", a, b⟩ :: ls) := by
  have hother : ∀ word, "DROP" ≠ word → keyword word (⟨.word "DROP", a, b⟩ :: ls) = none :=
    fun _ => keyword_other (by decide)
  simp [statement, query_eq_none (hother "VALUES" (by decide)) (hother "SELECT" (by decide)),
    insertion, insertionStart, updating, deletion, viewCreation, tableCreation, indexCreation,
    transaction, savepoint, upkeep, keywords, hother]

lemma reads_dropView (text : List Char) (name : String) :
    Reads (statement text) 0
      [.word "DROP", .word "VIEW", .word "IF", .word "EXISTS", .name name true]
      (· = .dropView name true) anyToken := by
  refine .token fun a b => Reads.token fun c d => Reads.token fun a₁ b₁ => Reads.token fun a₂ b₂ =>
    Reads.token fun a₃ b₃ => Reads.pure rfl fun k ls => ?_
  have hself : ∀ w, upper w = w → ∀ a b rest,
      keyword w (⟨.word w, a, b⟩ :: rest) = some ((), rest) :=
    fun w hw _ _ _ => keyword_word (by simp [hw])
  rw [statement_drop, removal]
  simp [passed, nameOf, keywords, hself "DROP" (by decide), hself "VIEW" (by decide),
    hself "IF" (by decide), hself "EXISTS" (by decide)]

end

/-! ### Views -/

lemma parse_dropView (name : String) :
    ParsesAs (Sql.dropView name) (· = .dropView name true) := by
  have hdrop : Writes "DROP VIEW IF EXISTS ".toList
      [.word "DROP", .word "VIEW", .word "IF", .word "EXISTS"] anything := writes_plain (by decide)
  have htext : Writes (Sql.dropView name).toList
      [.word "DROP", .word "VIEW", .word "IF", .word "EXISTS", .name name true] (· != '"') := by
    unfold Sql.dropView
    rw [String.toList_append]
    exact hdrop.append_any (writes_quoteName name)
  exact parse_of_writes htext ((reads_dropView _ name).more_fuel (Nat.zero_le _)) rfl

def allRows (name : String) : Query := .select false [.all] (.named name none) (.int 1)

lemma parse_selectAll (name : String) :
    ParsesAs (Sql.selectAll name) (· = .query (allRows name)) := by
  have hselect : Writes "SELECT * FROM ".toList [.word "SELECT", .symbol "*", .word "FROM"]
      anything := writes_plain (by decide)
  have htext : Writes (Sql.selectAll name).toList
      [.word "SELECT", .symbol "*", .word "FROM", .name name true] (· != '"') := by
    unfold Sql.selectAll
    rw [String.toList_append]
    exact hselect.append_any (writes_quoteName name)
  have hsource := (reads_from (reads_named (Sql.selectAll name).toList name)).more_fuel
    (show 1 ≤ 2 by decide)
  have hfilter := (reads_noWhere (Sql.selectAll name).toList).last.more_fuel (Nat.zero_le 2)
  have hread := reads_select (reads_outputsOne (reads_outputAll (Sql.selectAll name).toList) rfl)
    hsource hfilter rfl fun more hmore => by
      rw [eq_nil_of_noToken hmore]
      exact ⟨by rfl, by rfl⟩
  have hstatement := (reads_queryStatement hread).more_fuel (show 3 ≤ 16 * (4 + 1) by decide)
  refine (parse_of_writes htext hstatement rfl).imp ?_
  rintro st ⟨q, ⟨o, s, f, ⟨c, rfl, rfl⟩, rfl, rfl, rfl⟩, rfl⟩
  rfl

/-- A view that can be read can be dropped. -/
lemma parse_dropView_of_selectAll {name : String} (h : parse (Sql.selectAll name) ≠ .error) :
    parse (Sql.dropView name) ≠ .error := by
  have hselect : (Sql.selectAll name).toList =
      "SELECT * FROM ".toList ++ (quoteName name).toList := String.toList_append
  have hdrop : (Sql.dropView name).toList =
      "DROP VIEW IF EXISTS ".toList ++ (quoteName name).toList := String.toList_append
  have hstart : NoNull "DROP VIEW IF EXISTS ".toList := noNull_iff.mpr (by decide)
  obtain ⟨hnull, -⟩ := (parse_selectAll name).resolve_right fun herror => h herror.2
  have hdropped : NoNull (Sql.dropView name).toList := by
    intro c hc
    rw [hdrop] at hc
    rcases List.mem_append.mp hc with hc | hc
    · exact hstart c hc
    · refine hnull c ?_
      rw [hselect]
      exact List.mem_append_right _ hc
  intro herror
  obtain ⟨-, _, hparse, -⟩ := (parse_dropView name).resolve_right fun h => h.1 hdropped
  cases hparse.symm.trans herror

def projectionTokens (row : String) (columns : List String) : List Token :=
  if columns.isEmpty then [.name row true, .symbol ".", .symbol "*"]
  else [.symbol ","].intercalate (columns.map (columnTokens row))

/-- The columns of a result are those of a projection. -/
def IsProjection (row : String) (columns : List String) (os : List Output) : Prop :=
  if columns.isEmpty then os = [.allOf row]
  else
    List.Forall₂ (fun c o => ∃ title, o = .expr (.column (some row) c false) none title) columns os

lemma writes_projection (row : String) (columns : List String) :
    Writes (projection (quoteName row) columns).toList (projectionTokens row columns) closes := by
  unfold projection projectionTokens
  cases columns with
  | nil =>
    have hstar : Writes ".*".toList [.symbol ".", .symbol "*"] anything := writes_plain (by decide)
    simp only [List.isEmpty_nil, if_true, String.toList_append]
    exact ((writes_quoteName row).append hstar rfl).mono fun _ _ => rfl
  | cons column rest =>
    rw [List.isEmpty_cons, if_neg Bool.false_ne_true, if_neg Bool.false_ne_true]
    exact writes_commas (List.cons_ne_nil column rest) fun c _ =>
      (writes_columnOf row c).mono (closes_imp (by decide))

lemma reads_projection (text : List Char) (row : String) (columns : List String) :
    Reads (outputs text) (columns.length + 13) (projectionTokens row columns)
      (IsProjection row columns) (fun t => endsOutput t && t != .symbol ",") := by
  unfold projectionTokens IsProjection
  cases columns with
  | nil =>
    refine (reads_outputsOne (reads_outputAllOf text row) rfl).mono (by simp) ?_
      (by simp [anyToken])
    rintro os ⟨o, rfl, rfl⟩
    rfl
  | cons column rest =>
    have hcolumn : ∀ c, Reads (output text) 12 (columnTokens row c)
        (fun o => ∃ title, o = .expr (.column (some row) c false) none title) endsOutput := by
      intro c
      have hexpr := reads_expr (reads_conjunction (reads_negation
        (reads_ordered (reads_columnTokens text row c)) rfl))
      refine (reads_output hexpr (fun _ => rfl) fun _ => rfl).mono (Nat.le_refl _) ?_ fun _ => id
      rintro o ⟨e, title, rfl, rfl⟩
      exact ⟨title, rfl⟩
    have hlist := reads_list (isList_outputs text) (by decide) (List.cons_ne_nil column rest)
      fun c _ => hcolumn c
    simp only [List.isEmpty_cons, Bool.false_eq_true, if_false]
    exact hlist.more_fuel (by omega)

lemma length_le_projectionTokens (row : String) (columns : List String) :
    columns.length + 2 ≤ (projectionTokens row columns).length := by
  unfold projectionTokens
  cases columns with
  | nil => simp
  | cons c rest =>
    have hrest := length_le_flatMap (.symbol ",") (rest.map (columnTokens row))
    rw [List.length_map] at hrest
    simp only [List.isEmpty_cons, Bool.false_eq_true, if_false, List.map_cons, intercalate_cons,
      List.length_append, List.length_cons, columnTokens, List.length_nil]
    omega

def selectionTokens (table : String) (columns : List String) (filter : List Token) : List Token :=
  .word "SELECT" :: (projectionTokens table columns
    ++ ((Token.word "FROM" :: [Token.name table true]) ++ Token.word "WHERE" :: filter))

lemma reads_selection {text : List Char} {ts : List Token} {P : Expr → Prop} {fuel : Nat}
    (table : String) (columns : List String) (h : Reads (expr text) fuel ts P endsOr)
    (hfuel : fuel ≤ 16 * ts.length + 12) :
    Reads (query text) (16 * (selectionTokens table columns ts).length)
      (selectionTokens table columns ts)
      (fun q => ∃ os e, IsProjection table columns os ∧ P e ∧
        q = .select false os (.named table none) e) endsOr := by
  have hlength := length_le_projectionTokens table columns
  have houtputs := (reads_projection text table columns).more_fuel
    (show columns.length + 13 ≤ 16 * ((projectionTokens table columns).length + ts.length) by omega)
  have hsource := (reads_from (reads_named text table)).more_fuel
    (show 1 ≤ 16 * ((projectionTokens table columns).length + ts.length) by omega)
  have hfilter := (reads_where h).more_fuel
    (show fuel ≤ 16 * ((projectionTokens table columns).length + ts.length) by omega)
  have hstart : startsOutputs (projectionTokens table columns) = true := by
    unfold projectionTokens
    cases columns with
    | nil => rfl
    | cons c rest =>
      simp only [List.isEmpty_cons, Bool.false_eq_true, if_false, List.map_cons, intercalate_cons]
      rfl
  refine (reads_select houtputs hsource hfilter hstart fun more _ => ⟨by rfl, by rfl⟩).mono ?_ ?_
    fun _ => id
  · simp only [selectionTokens, List.length_cons, List.length_append]
    omega
  · rintro q ⟨o, s, f, ho, rfl, hf, rfl⟩
    exact ⟨o, f, ho, hf, rfl⟩

lemma writes_parameter (i : Nat) :
    Writes (parameter i).toList [.param (some i)] (fun c => !c.isDigit) := by
  have htext : (parameter i).toList = '?' :: Number.digits i := by
    simp [parameter, Number.natText]
  rw [htext]
  exact writes_param i

lemma writes_firstParam : Writes "?1".toList [.param (some 1)] (fun c => !c.isDigit) := by
  have hdigits : "?1".toList = '?' :: Number.digits 1 := by
    rw [Number.digits]
    decide
  rw [hdigits]
  exact writes_param 1

lemma reads_condition (n : Naming) (row : String) (text : List Char) (h : f.IsFinite) :
    Reads (expr text) (16 * (n.fragmentTokens row f).length + 4) (n.fragmentTokens row f)
      (f.Denotes n row) endsOr :=
  reads_expr (reads_conjunction (reads_fragment n row text h))

end Sql

namespace Naming

lemma parse_readView (n : Naming) {v : ReadView} (h : v.filter.IsFinite) :
    ParsesAs (n.readViewSql v) (fun st => ∃ os e, st = .createView (n.readView v.table) false
        (.select false os (.named v.table none) e) ∧
      IsProjection v.table v.projection os ∧ v.filter.Denotes n v.table e) := by
  have htext : Writes (n.readViewSql v).toList
      ([Token.word "CREATE", .word "VIEW", .name (n.readView v.table) true, .word "AS"]
        ++ selectionTokens v.table v.projection (n.fragmentTokens v.table v.filter)) closes := by
    unfold readViewSql
    have hall := ((((writes_createView.append_any (writes_quoteName (n.readView v.table))).append
      writes_asSelect rfl).append_any (writes_projection v.table v.projection)).append writes_from
        rfl).append_any (writes_quoteName v.table)
    refine ((hall.append writes_where rfl).append_any (n.writes_fragment v.table h)).of_eq ?_ ?_
    · simp only [String.toList_append, List.append_assoc]
    · simp only [selectionTokens, List.append_assoc, List.cons_append, List.nil_append]
  have hread := reads_createView (reads_selection v.table v.projection
    (reads_condition n v.table (n.readViewSql v).toList h) (by omega)) (n.readView v.table)
  refine (parse_of_writes htext
    (hread.more_fuel (by simp only [List.length_append]; omega)) rfl).imp ?_
  rintro st ⟨q, ⟨os, e, hos, he, rfl⟩, rfl⟩
  exact ⟨os, e, rfl, hos, he⟩

/-! ### Accessors -/

/-- The clauses of an accessor's query: the text, the tokens and the expression of each. -/
def clausePieces (n : Naming) (a : Accessor) : List (String × List Token × Sql.Expr) :=
  (a.parameters.zipIdx.map fun (c, i) =>
    (columnOf (quoteName a.table) c ++ " = " ++ parameter (i + 1),
      columnTokens a.table c ++ Token.symbol "=" :: [Token.param (some (i + 1))],
      Sql.Expr.compare .eq (.column (some a.table) c false) (.param i)))
    ++ a.conditions.filterMap fun
      | .check _ => none
      | .baked column value =>
        some (n.fragment (quoteName a.table) (.literalEq column value),
          n.fragmentTokens a.table (.literalEq column value),
          Fragment.literalExpr a.table column value)

def accessorFilter (n : Naming) (a : Accessor) : Sql.Expr :=
  if (n.clausePieces a).isEmpty then .int 1 else chain .and ((n.clausePieces a).map (·.2.2))

def accessorTokens (n : Naming) (a : Accessor) : List Token :=
  if (n.clausePieces a).isEmpty then [.int "1"]
  else [.word "AND"].intercalate ((n.clausePieces a).map (·.2.1))

lemma accessorClauses_eq (n : Naming) (a : Accessor) :
    n.accessorClauses a = (n.clausePieces a).map (·.1) := by
  simp only [accessorClauses, clausePieces, List.map_append, List.map_map, List.map_filterMap,
    Function.comp_def]
  congr 2
  funext c
  cases c <;> rfl

variable {a : Accessor}

lemma mem_clausePieces {n : Naming} {p : String × List Token × Sql.Expr}
    (hp : p ∈ n.clausePieces a)
    (h : ∀ column value, .baked column value ∈ a.conditions → value.isFinite = true)
    (text : List Char) :
    Writes p.1.toList p.2.1 closes ∧
      Reads (negation text) (16 * p.2.1.length) p.2.1 (· = p.2.2) endsEquality := by
  rcases List.mem_append.mp hp with hp | hp
  · obtain ⟨⟨c, i⟩, -, rfl⟩ := List.mem_map.mp hp
    constructor
    · have hparam : Writes (parameter (i + 1)).toList [.param (some (i + 1))] closes :=
        (writes_parameter (i + 1)).mono (closes_imp (by decide))
      refine (((writes_columnOf a.table c).append writes_equals rfl).append_any hparam).of_eq ?_ ?_
      · simp only [String.toList_append]
      · simp only [List.append_assoc, List.cons_append, List.nil_append]
    · have hcolumn := reads_ordered (reads_columnTokens text a.table c)
      have hparam := (reads_ordered (reads_param text i)).more_fuel (show 3 ≤ 4 by decide)
      refine (reads_equation hcolumn rfl hparam).mono ?_ ?_ fun _ => id
      · simp only [columnTokens, List.length_append, List.length_cons]
        omega
      · rintro e ⟨x, y, rfl, rfl, rfl⟩
        rfl
  · obtain ⟨condition, hcondition, hsome⟩ := List.mem_filterMap.mp hp
    cases condition with
    | check c => simp at hsome
    | baked column value =>
      cases hsome
      have hfinite : (Fragment.literalEq column value).IsFinite := h column value hcondition
      refine ⟨n.writes_fragment a.table hfinite,
        (reads_fragment n a.table text hfinite).mono (Nat.le_refl _) ?_ fun _ => id⟩
      intro e he
      rwa [Fragment.Denotes] at he

/-- The condition of an accessor's query is read as the conjunction of its clauses. -/
lemma reads_accessorTokens (n : Naming) (text : List Char)
    (h : ∀ column value, .baked column value ∈ a.conditions → value.isFinite = true) :
    Reads (expr text) (16 * (n.accessorTokens a).length + 11) (n.accessorTokens a)
      (· = n.accessorFilter a) endsOr := by
  unfold accessorTokens accessorFilter
  by_cases hempty : (n.clausePieces a).isEmpty = true
  · simp only [hempty, if_true]
    refine (reads_expr (reads_conjunction (reads_negation (reads_ordered (reads_int text "1"))
      rfl))).mono (by simp) ?_ fun _ => id
    rintro e rfl
    exact intLiteral_one
  · simp only [hempty, Bool.false_eq_true, if_false]
    have hall := reads_all (by simpa using hempty) fun p hp =>
      (mem_clausePieces hp h text).2.more_fuel (Nat.le_add_right _ 8)
    refine (reads_expr hall).mono (Nat.le_refl _) ?_ fun _ => id
    rintro e ⟨es, hes, rfl⟩
    rw [eq_map_of_forall₂ hes]

lemma writes_accessorTokens (n : Naming)
    (h : ∀ column value, .baked column value ∈ a.conditions → value.isFinite = true) :
    Writes (if (n.accessorClauses a).isEmpty then "1"
        else String.intercalate " AND " (n.accessorClauses a)).toList (n.accessorTokens a)
      closes := by
  rw [accessorClauses_eq, List.isEmpty_map, accessorTokens]
  by_cases hempty : (n.clausePieces a).isEmpty = true
  · simp only [hempty, if_true]
    exact (writes_int (by decide) (by decide)).mono (closes_imp (by decide))
  · simp only [hempty, Bool.false_eq_true, if_false]
    have hand : Writes " AND ".toList [.word "AND"] anything := writes_plain (by decide)
    exact Writes.intercalate_map hand (by decide) (by simpa using hempty) fun p hp =>
      (mem_clausePieces hp h []).1

lemma parse_accessorQuery (n : Naming)
    (h : ∀ column value, .baked column value ∈ a.conditions → value.isFinite = true) :
    ParsesAs (n.accessorQuery a) (fun st => ∃ os,
      st = .query (.select false os (.named a.table none) (n.accessorFilter a)) ∧
        IsProjection a.table a.projection os) := by
  have hselect : Writes "SELECT ".toList [.word "SELECT"] anything := writes_plain (by decide)
  have htext : Writes (n.accessorQuery a).toList
      (selectionTokens a.table a.projection (n.accessorTokens a)) closes := by
    unfold accessorQuery
    have hall := ((hselect.append_any (writes_projection a.table a.projection)).append writes_from
      rfl).append_any (writes_quoteName a.table)
    refine ((hall.append writes_where rfl).append_any (n.writes_accessorTokens h)).of_eq ?_ ?_
    · simp only [String.toList_append, List.append_assoc]
    · simp only [selectionTokens, List.append_assoc, List.cons_append, List.nil_append]
  have hread := reads_queryStatement (reads_selection a.table a.projection
    (reads_accessorTokens n (n.accessorQuery a).toList h) (by omega))
  refine (parse_of_writes htext (hread.more_fuel (by omega)) rfl).imp ?_
  rintro st ⟨q, ⟨os, e, hos, rfl, rfl⟩, rfl⟩
  exact ⟨os, rfl, hos⟩

/-! ### Conditions on one row -/

lemma head?_fragmentTokens (n : Naming) (row : String) (f : Fragment) :
    (n.fragmentTokens row f).head?.any (· != .symbol ".") = true := by
  cases f with
  | literalEq column value =>
    rw [fragmentTokens.eq_def]
    cases value <;> rfl
  | all children =>
    rw [fragmentTokens]
    cases children <;> rfl
  | any children =>
    rw [fragmentTokens]
    cases children <;> rfl
  | _ => rw [fragmentTokens]; rfl

/-- A result that is one condition in parentheses. -/
lemma reads_judgement (n : Naming) (row : String) (text : List Char) (h : f.IsFinite) :
    Reads (outputs text) (16 * (n.fragmentTokens row f).length + 16)
      (Token.symbol "(" :: n.fragmentTokens row f ++ [Token.symbol ")"])
      (fun os => ∃ e title, f.Denotes n row e ∧ os = [.expr e none title])
      (fun t => endsOutput t && t != .symbol ",") := by
  have hexpr := reads_expr (reads_conjunction (reads_negation
    (reads_ordered (reads_paren (reads_condition n row text h))) rfl))
  have hstarred : ∀ more,
      isStarred (.symbol "(" :: n.fragmentTokens row f ++ [Token.symbol ")"] ++ more) = false := by
    intro more
    have hhead := head?_fragmentTokens n row f
    cases hts : n.fragmentTokens row f with
    | nil => rw [hts] at hhead; simp at hhead
    | cons t ts =>
      rw [hts] at hhead
      have ht : t ≠ .symbol "." := by simpa using hhead
      simp only [List.cons_append, isStarred]
      split
      · next heq => simp only [List.cons.injEq] at heq; exact absurd heq.2.1 ht
      · rfl
  refine (reads_outputsOne (reads_output hexpr (fun _ => rfl) hstarred) (by decide)).mono
    (by omega) ?_ fun _ => id
  rintro os ⟨o, ⟨e, title, he, rfl⟩, rfl⟩
  exact ⟨e, title, he, rfl⟩

/-- The row that holds a candidate value. -/
def candidateQuery (column title : String) : Query :=
  .select false [.expr (.param 0) (some column) title] .unit (.int 1)

def candidateTokens (column : String) : List Token :=
  Token.word "SELECT" :: ([Token.param (some 1), .word "AS", .name column true] ++ ([] ++ []))

lemma reads_candidate (text : List Char) (column : String) :
    Reads (query text) 13 (candidateTokens column)
      (fun q => ∃ title, q = candidateQuery column title) (· == .symbol ")") := by
  have hexpr := reads_expr (reads_conjunction (reads_negation
    (reads_ordered (reads_param text 0)) rfl))
  have houtput : Reads (output text) 11 [.param (some 1), .word "AS", .name column true]
      (fun o => ∃ e title, e = .param 0 ∧ o = .expr e (some column) title) anyToken :=
    reads_renamed hexpr (fun _ _ _ => rfl) (fun _ => rfl) fun _ => rfl
  have hfilter : Reads (wherePart text) 12 [] (· = .int 1) (· == .symbol ")") :=
    (reads_noWhere text).mono (Nat.zero_le 12) (fun _ => id) (by simp_all [Token.isWord])
  refine (reads_select (reads_outputsOne houtput rfl)
    ((reads_noFrom text).more_fuel (Nat.zero_le 12)) hfilter rfl ?_).mono (Nat.le_refl _) ?_
      fun _ => id
  · intro more hmore
    exact ⟨all_head?_imp (by simp_all [anyToken]) hmore,
      all_head?_imp (by simp_all [Token.isWord]) hmore⟩
  · rintro q ⟨o, s, f, ⟨c, ⟨e, title, rfl, rfl⟩, rfl⟩, rfl, rfl, rfl⟩
    exact ⟨title, rfl⟩

lemma parse_check (n : Naming) {c : Check} (h : c.fragment.IsFinite) :
    ParsesAs (n.renderCheck c).sql (fun st => ∃ e title inner,
      st = .query (.select false [.expr e none title]
        (.query (candidateQuery c.column inner) (some "candidate")) (.int 1)) ∧
      c.fragment.Denotes n "candidate" e) := by
  have hselect : Writes "SELECT (".toList [.word "SELECT", .symbol "("] anything :=
    writes_plain (by decide)
  have hfrom : Writes ") FROM (SELECT ".toList
      [.symbol ")", .word "FROM", .symbol "(", .word "SELECT"] anything := writes_plain (by decide)
  have hsource : Writes ") FROM (SELECT ?1 AS ".toList
      [.symbol ")", .word "FROM", .symbol "(", .word "SELECT", .param (some 1), .word "AS"]
      anything := (hfrom.append_any writes_firstParam).append writes_as rfl
  have hname : Writes (") AS " ++ candidateName).toList
      [.symbol ")", .word "AS", .name "candidate" true] (· != '"') := by
    have hclose : Writes ") AS ".toList [.symbol ")", .word "AS"] anything :=
      writes_plain (by decide)
    rw [String.toList_append]
    exact hclose.append_any (writes_quoteName "candidate")
  have htext : Writes (n.renderCheck c).sql.toList
      (.word "SELECT" ::
        ((.symbol "(" :: n.fragmentTokens "candidate" c.fragment ++ [Token.symbol ")"])
        ++ ((Token.word "FROM" :: (Token.symbol "(" :: (candidateTokens c.column
          ++ [Token.symbol ")", .word "AS", .name "candidate" true]))) ++ []))) (· != '"') := by
    unfold renderCheck candidateName
    have hall := ((hselect.append_any (n.writes_fragment "candidate" h)).append hsource
      rfl).append_any (writes_quoteName c.column)
    refine (hall.append hname rfl).of_eq ?_ ?_
    · simp only [String.toList_append, List.append_assoc, candidateName]
    · simp only [candidateTokens, List.append_assoc, List.cons_append, List.nil_append,
        List.append_nil]
  have hrow := (reads_from (reads_derived (reads_candidate (n.renderCheck c).sql.toList c.column)
    rfl "candidate")).more_fuel
      (show 14 ≤ 16 * (n.fragmentTokens "candidate" c.fragment).length + 16 by omega)
  have hread := reads_queryStatement (reads_select
    (reads_judgement n "candidate" (n.renderCheck c).sql.toList h) hrow
    ((reads_noWhere (n.renderCheck c).sql.toList).last.more_fuel (Nat.zero_le _)) rfl
    fun more hmore => by rw [eq_nil_of_noToken hmore]; exact ⟨by rfl, by rfl⟩)
  refine (parse_of_writes htext
    (hread.more_fuel (by simp only [List.length_append, List.length_cons]; omega)) rfl).imp ?_
  rintro st ⟨q, ⟨o, s, f, ⟨e, title, he, rfl⟩, ⟨r, ⟨inner, rfl⟩, rfl⟩, rfl, rfl⟩, rfl⟩
  exact ⟨e, title, inner, rfl, he⟩

lemma parse_storedRowCondition (n : Naming) (table : String) (h : f.IsFinite) :
    ParsesAs (storedRowCondition (n.fragment (quoteName table) f) table) (fun st => ∃ e title,
      st = .query (.select false [.expr e none title] (.named table none)
        (.compare .eq (.column (some table) "rowid" false) (.param 0))) ∧
      f.Denotes n table e) := by
  have hselect : Writes "SELECT (".toList [.word "SELECT", .symbol "("] anything :=
    writes_plain (by decide)
  have hfrom : Writes ") FROM ".toList [.symbol ")", .word "FROM"] anything :=
    writes_plain (by decide)
  have hrowid : Writes ".rowid = ?1".toList
      [.symbol ".", .word "rowid", .symbol "=", .param (some 1)] (fun c => !c.isDigit) := by
    have hequals : Writes ".rowid = ".toList [.symbol ".", .word "rowid", .symbol "="] anything :=
      writes_plain (by decide)
    exact hequals.append_any writes_firstParam
  have htext : Writes (storedRowCondition (n.fragment (quoteName table) f) table).toList
      (Token.word "SELECT" :: ((Token.symbol "(" :: n.fragmentTokens table f ++ [Token.symbol ")"])
        ++ ((Token.word "FROM" :: [Token.name table true]) ++ (Token.word "WHERE" ::
          ([Token.name table true, .symbol ".", .word "rowid"]
            ++ Token.symbol "=" :: [Token.param (some 1)])))))
      (fun c => !c.isDigit) := by
    unfold storedRowCondition
    have hall := (((hselect.append_any (n.writes_fragment table h)).append hfrom rfl).append_any
      (writes_quoteName table)).append writes_where rfl
    refine ((hall.append_any (writes_quoteName table)).append hrowid rfl).of_eq ?_ ?_
    · simp only [String.toList_append, List.append_assoc]
    · simp only [List.append_assoc, List.cons_append, List.nil_append]
  -- From here on only the tokens of the text matter.
  generalize (storedRowCondition (n.fragment (quoteName table) f) table) = sql at *
  have hcolumn := reads_ordered
    (reads_column sql.toList table "rowid" (nameOf_word (by decide)))
  have hparam := (reads_ordered (reads_param sql.toList 0)).more_fuel (show 3 ≤ 4 by decide)
  have hfilter := (reads_where (reads_expr (reads_conjunction
    (reads_equation hcolumn rfl hparam)))).more_fuel
      (show 11 ≤ 16 * (n.fragmentTokens table f).length + 16 by omega)
  have hrow := (reads_from (reads_named sql.toList table)).more_fuel
      (show 1 ≤ 16 * (n.fragmentTokens table f).length + 16 by omega)
  have hread := reads_queryStatement (reads_select (reads_judgement n table sql.toList h) hrow
    hfilter rfl fun more _ => ⟨by rfl, by rfl⟩)
  refine (parse_of_writes htext
    (hread.more_fuel (by simp only [List.length_append, List.length_cons]; omega)) rfl).imp ?_
  rintro st ⟨q, ⟨o, s, g, ⟨e, title, he, rfl⟩, rfl, ⟨x, y, rfl, rfl, rfl⟩, rfl⟩, rfl⟩
  exact ⟨e, title, rfl, he⟩

end Naming

namespace Sql

/-! ### Insertions -/

lemma reads_values {text : List Char} {fuel : Nat} {ts : List Token} {Q : List Expr → Prop}
    (h : Reads (exprs text) fuel ts Q endsItem) :
    Reads (query text) (fuel + 2) (.word "VALUES" :: .symbol "(" :: (ts ++ [Token.symbol ")"]))
      (fun q => ∃ es, Q es ∧ q = .values [es]) noToken := by
  refine .add 2 <| Reads.token fun a b => Reads.token fun c d k hk ls more hls hmore => ?_
  rw [eq_nil_of_noToken hmore, List.append_assoc] at hls
  obtain ⟨es, ls₁, hread, hes, hls₁⟩ := h k hk ls _ hls endsItem_close
  obtain ⟨a₁, b₁, rest, rfl, hrest⟩ := map_token_eq_cons.mp hls₁
  obtain rfl := List.map_eq_nil_iff.mp hrest
  have hend : symbol "," [] = none := rfl
  refine ⟨.values [es], [], ?_, ⟨es, hes, rfl⟩, (eq_nil_of_noToken hmore).symm⟩
  rw [query, keyword_word (by decide)]
  simp [valueRows, symbol_self, hread, hend]

def insertTokens (table : String) (columns : List String) : List Token :=
  [Token.word "INSERT", .word "INTO", .name table true] ++
    if columns.isEmpty then [Token.word "DEFAULT", .word "VALUES"]
    else .symbol "(" :: ([Token.symbol ","].intercalate (columns.map fun c => [Token.name c true])
      ++ [Token.symbol ")"] ++ Token.word "VALUES" :: Token.symbol "(" ::
        ([Token.symbol ","].intercalate
          ((List.range columns.length).map fun i => [Token.param (some (i + 1))])
          ++ [Token.symbol ")"]))

def insertStatement (table : String) (columns : List String) : Statement :=
  if columns.isEmpty then .insert table none none
  else .insert table (some columns) (some (.values [(List.range columns.length).map .param]))

lemma writes_insert (table : String) (columns : List String) :
    Writes (Sql.insert table columns).toList (insertTokens table columns) endsWord := by
  have hinsert : Writes "INSERT INTO ".toList [.word "INSERT", .word "INTO"] anything :=
    writes_plain (by decide)
  have htable := hinsert.append_any (writes_quoteName table)
  unfold Sql.insert insertTokens
  by_cases hempty : columns = []
  · have hdefault : Writes " DEFAULT ".toList [.word "DEFAULT"] anything := writes_plain (by decide)
    have hvalues : Writes "VALUES".toList [.word "VALUES"] endsWord :=
      writes_word (by decide) (by decide)
    have hend : Writes " DEFAULT VALUES".toList [.word "DEFAULT", .word "VALUES"] endsWord :=
      hdefault.append_any hvalues
    simp only [hempty, List.isEmpty_nil, if_true, String.toList_append]
    exact htable.append hend rfl
  · have hcolumns : Writes (String.intercalate ", " (columns.map quoteName)).toList
        ([Token.symbol ","].intercalate (columns.map fun c => [Token.name c true])) closes :=
      writes_commas hempty fun c _ => (writes_quoteName c).mono (closes_imp (by decide))
    have hparams : Writes (String.intercalate ", "
          ((List.range columns.length).map fun i => parameter (i + 1))).toList
        ([Token.symbol ","].intercalate
          ((List.range columns.length).map fun i => [.param (some (i + 1))])) closes :=
      writes_commas (by simpa using hempty) fun i _ =>
        (writes_parameter (i + 1)).mono (closes_imp (by decide))
    have hopen : Writes " (".toList [.symbol "("] anything := writes_plain (by decide)
    have hvalues : Writes ") VALUES (".toList [.symbol ")", .word "VALUES", .symbol "("] anything :=
      writes_plain (by decide)
    have hclose : Writes ")".toList [.symbol ")"] anything := writes_plain (by decide)
    have hall := ((((htable.append hopen rfl).append_any hcolumns).append hvalues rfl).append_any
      hparams).append hclose rfl
    refine (hall.mono fun _ _ => rfl).of_eq ?_ ?_
    · simp only [List.isEmpty_iff, hempty, if_false, String.toList_append]
    · simp only [List.isEmpty_iff, hempty, if_false, List.append_assoc, List.cons_append,
        List.nil_append]

lemma reads_columnNames {columns : List String} (hne : columns ≠ []) :
    Reads names columns.length ([.symbol ","].intercalate (columns.map fun c => [.name c true]))
      (· = columns) (fun t => anyToken t && t != .symbol ",") := by
  have hname : ∀ c, Reads (fun _ => nameOf) 0 [.name c true] (· = c) anyToken := fun c =>
    .token fun _ _ => Reads.pure rfl fun _ _ => rfl
  refine (reads_list isList_names rfl hne fun c _ => hname c).mono (Nat.le_refl _) ?_ fun _ => id
  intro cs hcs
  rw [eq_map_of_forall₂ hcs, List.map_id']

lemma reads_params (text : List Char) {is : List Nat} (hne : is ≠ []) :
    Reads (exprs text) (is.length + 9)
      ([Token.symbol ","].intercalate (is.map fun i => [Token.param (some (i + 1))]))
      (· = is.map .param) endsItem := by
  have hparam : ∀ i, Reads (expr text) 9 [.param (some (i + 1))] (· = .param i) endsOr := fun i =>
    reads_expr (reads_conjunction (reads_negation (reads_ordered (reads_param text i)) rfl))
  exact (reads_list (isList_exprs text) endsOr_comma hne fun i _ => hparam i).mono
    (Nat.le_refl _) (fun _ => eq_map_of_forall₂) fun _ => id

lemma statement_insert {text : List Char} {a : Nat} :
    statement text k (⟨.word "INSERT", a, b⟩ :: ls) =
      insertion text k (⟨.word "INSERT", a, b⟩ :: ls) := by
  have hother : ∀ word, "INSERT" ≠ word → keyword word (⟨.word "INSERT", a, b⟩ :: ls) = none :=
    fun _ => keyword_other (by decide)
  simp [statement, query_eq_none (hother "VALUES" (by decide)) (hother "SELECT" (by decide)),
    updating, deletion, viewCreation, tableCreation, indexCreation, removal, transaction, savepoint,
    upkeep, keywords, hother]

lemma reads_insert (text : List Char) (table : String) (columns : List String) :
    Reads (statement text) (16 * (insertTokens table columns).length) (insertTokens table columns)
      (· = insertStatement table columns) noToken := by
  intro k hk ls more hls hmore
  rw [eq_nil_of_noToken hmore, List.append_nil] at hls
  rw [eq_nil_of_noToken hmore]
  unfold insertTokens at hls
  simp only [List.cons_append, List.nil_append, map_token_eq_cons] at hls
  obtain ⟨a, b, _, rfl, c, d, _, rfl, a₁, b₁, ls₃, rfl, hls₃⟩ := hls
  have hstart : ∀ rest, insertionStart (⟨.word "INSERT", a, b⟩ :: ⟨.word "INTO", c, d⟩ :: rest) =
      some (false, rest) := by
    intro rest
    simp +decide [insertionStart, keywords, keyword_cons]
  refine ⟨insertStatement table columns, [], ?_, rfl, rfl⟩
  rw [statement_insert, insertion]
  unfold insertStatement
  by_cases hempty : columns = []
  · -- A row without columns consists of default values.
    simp only [hempty, List.isEmpty_nil, if_true] at hls₃ ⊢
    simp only [map_token_eq_cons, List.map_eq_nil_iff] at hls₃
    obtain ⟨a₂, b₂, _, rfl, a₃, b₃, _, rfl, rfl⟩ := hls₃
    simp +decide [hstart, nameOf, insertColumns, symbol_cons, keywords, keyword_cons]
  · -- First the list of names is read, then the list of placeholders.
    simp only [List.isEmpty_iff, hempty, if_false, List.append_assoc, List.cons_append,
      List.nil_append] at hls₃
    simp only [insertTokens, List.isEmpty_iff, hempty, if_false, List.length_append,
      List.length_cons, List.length_nil] at hk
    have hnames := length_le_intercalate (.symbol ",") (columns.map fun c => [Token.name c true])
    have hparams := length_le_intercalate (.symbol ",")
      ((List.range columns.length).map fun i => [Token.param (some (i + 1))])
    rw [List.length_map] at hnames hparams
    rw [List.length_range] at hparams
    obtain ⟨a₂, b₂, ls₄, rfl, hls₄⟩ := map_token_eq_cons.mp hls₃
    obtain ⟨cs, ls₅, hreadNames, hcs, hls₅⟩ := reads_columnNames hempty k (by omega) ls₄ _ hls₄ rfl
    obtain ⟨a₃, b₃, ls₆, rfl, hls₆⟩ := map_token_eq_cons.mp hls₅
    have hrange : List.range columns.length ≠ [] := by simpa using hempty
    obtain ⟨q, rest, hreadRow, hq, hrest⟩ := reads_values (reads_params text hrange)
      k (by rw [List.length_range]; omega) ls₆ [] (by rw [hls₆, List.append_nil]) rfl
    rw [List.map_eq_nil_iff] at hrest
    subst hrest
    subst hcs
    obtain ⟨es, rfl, rfl⟩ := hq
    have hdefault : keywords ["DEFAULT", "VALUES"] ls₆ = none := by
      rw [keywords, keyword_eq_none (by rw [hls₆]; rfl)]
    simp [hstart, nameOf, insertColumns, symbol_self, hreadNames, hdefault, hreadRow, hempty]

lemma parse_insert (table : String) (columns : List String) :
    ParsesAs (Sql.insert table columns) (· = insertStatement table columns) :=
  parse_of_writes (writes_insert table columns)
    ((reads_insert _ table columns).more_fuel (by omega)) rfl

end Sql

end RowPolicy
