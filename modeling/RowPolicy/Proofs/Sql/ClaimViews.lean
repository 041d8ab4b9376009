import RowPolicy.Proofs.Sql.Statements

/-!
# Views of claims

What the view of a claim is parsed as. Its columns are those of the claim under fixed names,
whatever the rows come from; if they come from a table, the whole query is known.
-/

namespace RowPolicy

open Sql

/-- The columns of a claim's rows and their names in its view. -/
def Claim.columns (c : Claim) : List (String × String) :=
  (c.principalColumn, "principal_id") :: (c.valueColumn, "related_id")
    :: c.attributes.map fun a => (a, a)

/-- The columns of a result are columns of a row under new names. -/
def Sql.IsRenaming (row : String) (columns : List (String × String)) (os : List Output) : Prop :=
  List.Forall₂ (fun c o => ∃ title, o = .expr (.column (some row) c.1 false) (some c.2) title)
    columns os

lemma Sql.reads_namedAs (text : List Char) (name label : String) :
    Reads (source text) 1 [.name name true, .word "AS", .name label true]
      (· = .named name (some label)) anyToken := by
  refine .add 1 <| Reads.token fun a b => Reads.token fun a₁ b₁ => Reads.token fun a₂ b₂ =>
    Reads.pure rfl fun k ls => ?_
  have hlabel : nameOf (⟨.name label true, a₂, b₂⟩ :: ls) = some (label, ls) := rfl
  simp [source, symbol_cons, nameOf, label?_as hlabel]

namespace Naming

/-- The columns of a claim's view: the text and the tokens of each, and what it is parsed as. -/
def columnPieces (c : Claim) : List (String × List Token × String × String) :=
  (columnOf sourceName c.principalColumn ++ " AS principal_id",
      columnTokens "claim_source" c.principalColumn ++ [Token.word "AS", .word "principal_id"],
      c.principalColumn, "principal_id")
    :: (columnOf sourceName c.valueColumn ++ " AS related_id",
      columnTokens "claim_source" c.valueColumn ++ [Token.word "AS", .word "related_id"],
      c.valueColumn, "related_id")
    :: c.attributes.map fun a => (columnOf sourceName a ++ " AS " ++ quoteName a,
      columnTokens "claim_source" a ++ [Token.word "AS", .name a true], a, a)

lemma columnPieces_columns (c : Claim) : (columnPieces c).map (·.2.2) = c.columns := by
  simp [columnPieces, Claim.columns, Function.comp_def]

lemma columnPieces_claimColumns (c : Claim) : (columnPieces c).map (·.1) = claimColumns c := by
  simp [columnPieces, claimColumns, Function.comp_def]

def claimTokens (c : Claim) : List Token :=
  [Token.symbol ","].intercalate ((columnPieces c).map (·.2.1))

lemma writes_columnPieces {c : Claim} {p : String × List Token × String × String}
    (hp : p ∈ columnPieces c) : Writes p.1.toList p.2.1 closes := by
  have hword : ∀ {column : String} {w : List Char} {name : String},
      Writes w [.word name] endsWord →
      Writes ((columnOf sourceName column).toList ++ (" AS ".toList ++ w))
        (columnTokens "claim_source" column ++ ([Token.word "AS"] ++ [Token.word name])) closes :=
    fun hw => ((writes_columnOf "claim_source" _).append (writes_as.append_any hw) rfl).mono
      (closes_imp (by decide))
  have hprincipal : Writes "principal_id".toList [.word "principal_id"] endsWord :=
    writes_word (by decide) (by decide)
  have hrelated : Writes "related_id".toList [.word "related_id"] endsWord :=
    writes_word (by decide) (by decide)
  rw [columnPieces, List.mem_cons, List.mem_cons, List.mem_map] at hp
  obtain rfl | rfl | ⟨a, -, rfl⟩ := hp
  · exact (hword hprincipal).of_eq (String.toList_append ..) rfl
  · exact (hword hrelated).of_eq (String.toList_append ..) rfl
  · have hname := ((writes_columnOf "claim_source" a).append
      (writes_as.append_any (writes_quoteName a)) rfl).mono
      (closes_imp (p := (· != '"')) (by decide))
    refine hname.of_eq ?_ rfl
    simp only [String.toList_append, List.append_assoc, sourceName]

lemma reads_columnPieces (text : List Char) {c : Claim} {p : String × List Token × String × String}
    (hp : p ∈ columnPieces c) :
    Reads (output text) 12 p.2.1 (fun o => ∃ title,
      o = .expr (.column (some "claim_source") p.2.2.1 false) (some p.2.2.2) title) anyToken := by
  have hcolumn : ∀ (column name : String) (t : Token),
      (∀ a b ls, nameOf (⟨t, a, b⟩ :: ls) = some (name, ls)) →
      Reads (output text) 12 (columnTokens "claim_source" column ++ [Token.word "AS", t])
        (fun o => ∃ title,
          o = .expr (.column (some "claim_source") column false) (some name) title) anyToken := by
    intro column name t hname
    have hexpr := reads_expr (reads_conjunction (reads_negation
      (reads_ordered (reads_columnTokens text "claim_source" column)) rfl))
    refine (reads_renamed hexpr hname (fun _ => rfl) fun _ => rfl).mono (Nat.le_refl _) ?_
      fun _ => id
    rintro o ⟨e, title, rfl, rfl⟩
    exact ⟨title, rfl⟩
  rw [columnPieces, List.mem_cons, List.mem_cons, List.mem_map] at hp
  obtain rfl | rfl | ⟨a, -, rfl⟩ := hp
  · exact hcolumn _ _ _ (nameOf_word (by decide))
  · exact hcolumn _ _ _ (nameOf_word (by decide))
  · exact hcolumn _ _ _ fun _ _ _ => rfl

lemma writes_claimTokens (c : Claim) :
    Writes (String.intercalate ", " (claimColumns c)).toList (claimTokens c) closes := by
  rw [← columnPieces_claimColumns, claimTokens]
  exact writes_commas (by simp [columnPieces]) fun _ hp => writes_columnPieces hp

lemma reads_claimTokens (text : List Char) (c : Claim) :
    Reads (outputs text) ((columnPieces c).length + 12) (claimTokens c)
      (IsRenaming "claim_source" c.columns) (fun t => anyToken t && t != .symbol ",") := by
  have hlist := reads_list (isList_outputs text) rfl (by simp [columnPieces])
    fun p (hp : p ∈ columnPieces c) => reads_columnPieces text hp
  refine hlist.mono (Nat.le_refl _) (fun os hos => ?_) fun _ => id
  rw [IsRenaming, ← columnPieces_columns]
  exact List.forall₂_map_left_iff.mpr hos

lemma length_le_claimTokens (c : Claim) : (columnPieces c).length ≤ (claimTokens c).length + 1 := by
  have hlength := length_le_intercalate (.symbol ",") ((columnPieces c).map (·.2.1))
  rwa [List.length_map] at hlength

lemma startsOutputs_claimTokens (c : Claim) (more : List Token) :
    startsOutputs (claimTokens c ++ more) = true := by
  rw [claimTokens, columnPieces, List.map_cons, intercalate_cons]
  rfl

def claimStart (n : Naming) (c : Claim) : String :=
  "CREATE VIEW " ++ quoteName (n.claimView c.name) ++ " AS SELECT "
    ++ String.intercalate ", " (claimColumns c) ++ " FROM "

lemma writes_claimStart (n : Naming) (c : Claim) :
    Writes (n.claimStart c).toList
      (Token.word "CREATE" :: ([Token.word "VIEW", .name (n.claimView c.name) true, .word "AS",
        .word "SELECT"] ++ claimTokens c ++ [Token.word "FROM"])) anything := by
  have hall := (((writes_createView.append_any (writes_quoteName (n.claimView c.name))).append
    writes_asSelect rfl).append_any (writes_claimTokens c)).append writes_from rfl
  refine hall.of_eq ?_ ?_
  · simp only [claimStart, String.toList_append, List.append_assoc]
  · simp only [List.cons_append, List.nil_append]

lemma claimViewSql_eq (n : Naming) (c : Claim) :
    n.claimViewSql c = n.claimStart c ++ sourceText c.source ++ " AS " ++ sourceName := by
  unfold claimViewSql claimStart
  exact Eq.refl _

lemma parse_claimView (n : Naming) (c : Claim) :
    StartsAs (n.claimViewSql c) (fun st => ∃ os source filter,
      st = .createView (n.claimView c.name) false (.select false os source filter) ∧
        IsRenaming "claim_source" c.columns os) := by
  have htext : (n.claimViewSql c).toList = (n.claimStart c).toList ++
      (sourceText c.source ++ " AS " ++ sourceName).toList := by
    simp only [claimViewSql_eq, String.toList_append, List.append_assoc]
  refine parse_of_start htext (n.writes_claimStart c) nofun fun k ls us st rest hfuel hls hst => ?_
  have hlength : ls.length = (ls.map Lexeme.token).length := by rw [List.length_map]
  rw [hls] at hlength
  simp only [List.cons_append, List.append_assoc, List.nil_append, map_token_eq_cons] at hls hlength
  obtain ⟨a, b, _, rfl, a₁, b₁, _, rfl, a₂, b₂, _, rfl, a₃, b₃, _, rfl, a₄, b₄, ls, rfl, hls⟩ := hls
  rw [statement_createView, viewCreation_eq] at hst
  simp only [Option.bind_eq_bind, Option.bind_eq_some_iff] at hst
  obtain ⟨⟨q, ls₁⟩, hq, heq⟩ := hst
  cases heq
  have hcount := length_le_claimTokens c
  simp only [List.length_cons, List.length_append] at hlength hfuel
  obtain ⟨k, rfl⟩ : ∃ j, k = j + 1 := ⟨k - 1, by omega⟩
  obtain ⟨os, ls₂, hread, hos, -⟩ :=
    reads_claimTokens (n.claimViewSql c).toList c k (by omega) ls _ hls rfl
  rw [query_select (by rw [hls]; exact startsOutputs_claimTokens c _)] at hq
  simp only [hread, Option.bind_eq_bind, Option.bind_some, Option.bind_eq_some_iff] at hq
  obtain ⟨⟨source, ls₃⟩, -, ⟨filter, ls₄⟩, -, heq⟩ := hq
  cases heq
  exact ⟨os, source, filter, rfl, hos⟩

/-- The view of a claim whose rows come from a table shows every row of the table. -/
lemma parse_claimView_table (n : Naming) {c : Claim} {table : String}
    (hsource : c.source = .table table) :
    ParsesAs (n.claimViewSql c) (fun st => ∃ os, st = .createView (n.claimView c.name) false
        (.select false os (.named table (some "claim_source")) (.int 1)) ∧
      IsRenaming "claim_source" c.columns os) := by
  have htext : Writes (n.claimViewSql c).toList
      ([Token.word "CREATE", .word "VIEW", .name (n.claimView c.name) true, .word "AS"]
        ++ (Token.word "SELECT" :: (claimTokens c ++ ((Token.word "FROM" ::
          [Token.name table true, .word "AS", .name "claim_source" true]) ++ []))))
      (· != '"') := by
    have hall := (((n.writes_claimStart c).append_any (writes_quoteName table)).append writes_as
      rfl).append_any (writes_quoteName "claim_source")
    refine hall.of_eq ?_ ?_
    · rw [claimViewSql_eq, hsource]
      simp only [sourceText, sourceName, String.toList_append]
    · simp only [List.append_assoc, List.cons_append, List.nil_append, List.append_nil]
  have hcount := length_le_claimTokens c
  have houtputs := (reads_claimTokens (n.claimViewSql c).toList c).more_fuel
    (show (columnPieces c).length + 12 ≤ (claimTokens c).length + 13 by omega)
  have hfrom := (reads_from (reads_namedAs (n.claimViewSql c).toList table
    "claim_source")).more_fuel (show 1 ≤ (claimTokens c).length + 13 by omega)
  have hfilter := (reads_noWhere (n.claimViewSql c).toList).last.more_fuel
    (Nat.zero_le ((claimTokens c).length + 13))
  have hselect := reads_select houtputs hfrom hfilter
    (by simpa using startsOutputs_claimTokens c []) fun more hmore => by
      rw [eq_nil_of_noToken hmore]
      exact ⟨by rfl, by rfl⟩
  have hread := reads_createView hselect (n.claimView c.name)
  refine (parse_of_writes htext
    (hread.more_fuel (by simp only [List.length_append, List.length_cons]; omega)) rfl).imp ?_
  rintro st ⟨q, ⟨os, s, f, hos, rfl, rfl, rfl⟩, rfl⟩
  exact ⟨os, rfl, hos⟩

end Naming

end RowPolicy
