import RowPolicy.Proofs.Sql.Statements

/-!
# Restricted writes

What the update and the deletion of a guard are parsed as. Both are restricted to the rows that have
the given key and meet the filter of the guard.
-/

namespace RowPolicy

open Sql

variable {columns : List String}

namespace Sql

/-! ### The condition -/

/-- The condition of a restricted write: the row has the key that a parameter gives, and it meets
the filter. -/
def restriction (table key : String) (i : Nat) (filter : Expr) : Expr :=
  .and [.compare .eq (.column (some table) key false) (.param i), filter]

def restrictionTokens (table key : String) (i : Nat) (filter : List Token) : List Token :=
  (columnTokens table key ++ Token.symbol "=" :: [Token.param (some (i + 1))])
    ++ Token.word "AND" :: (Token.symbol "(" :: filter ++ [Token.symbol ")"])

variable {ts : List Token} {P : Expr → Prop} {text : List Char}

lemma writes_restriction (table key : String) (i : Nat) {filter : String}
    (h : Writes filter.toList ts closes) :
    Writes (columnOf (quoteName table) key ++ " = " ++ parameter (i + 1) ++ " AND (" ++ filter
      ++ ")").toList (restrictionTokens table key i ts) anything := by
  have hand : Writes " AND (".toList [.word "AND", .symbol "("] anything := writes_plain (by decide)
  have hclose : Writes ")".toList [.symbol ")"] anything := writes_plain (by decide)
  have hkey := (((writes_columnOf table key).append writes_equals rfl).append_any
    (writes_parameter (i + 1))).append hand rfl
  refine ((hkey.append_any h).append hclose rfl).of_eq ?_ ?_
  · simp only [String.toList_append]
  · simp only [restrictionTokens, List.append_assoc, List.cons_append, List.nil_append]

lemma reads_restriction (text : List Char) (table key : String) (i : Nat)
    (h : Reads (expr text) (16 * ts.length + 4) ts P endsOr) :
    Reads (expr text) (16 * (restrictionTokens table key i ts).length + 11)
      (restrictionTokens table key i ts)
      (fun e => ∃ filter, P filter ∧ e = restriction table key i filter) endsOr := by
  let pieces : List (Piece Expr) :=
    [(columnTokens table key ++ Token.symbol "=" :: [Token.param (some (i + 1))],
      fun e => ∃ x y, x = .column (some table) key false ∧ y = .param i ∧ e = .compare .eq x y),
    (Token.symbol "(" :: ts ++ [Token.symbol ")"], P)]
  have hcolumn := reads_ordered (reads_columnTokens text table key)
  have hparam := (reads_ordered (reads_param text i)).more_fuel (show 3 ≤ 4 by decide)
  have hpieces : ∀ p ∈ pieces,
      Reads (negation text) (16 * p.1.length + 8) p.1 p.2 endsEquality := by
    refine List.forall_mem_cons.mpr ⟨?_, List.forall_mem_singleton.mpr ?_⟩
    · refine (reads_equation hcolumn rfl hparam).more_fuel ?_
      simp only [columnTokens, List.length_append, List.length_cons]
      omega
    · refine (reads_negation (reads_ordered (reads_paren h)) rfl).more_fuel ?_
      simp only [List.length_append, List.length_cons]
      omega
  have hall := reads_expr (reads_all (by simp [pieces]) hpieces)
  have htokens : [.word "AND"].intercalate (pieces.map Prod.fst) =
      restrictionTokens table key i ts := by
    simp [pieces, restrictionTokens, List.intercalate]
  rw [htokens] at hall
  refine hall.mono (Nat.le_refl _) ?_ fun _ => id
  rintro e ⟨es, hes, rfl⟩
  obtain ⟨_, rest, ⟨x, y, rfl, rfl, rfl⟩, hrest, rfl⟩ := List.forall₂_cons_left_iff.mp hes
  obtain ⟨filter, _, hfilter, hnil, rfl⟩ := List.forall₂_cons_left_iff.mp hrest
  cases hnil
  exact ⟨filter, hfilter, rfl⟩

/-! ### Changes -/

def change (text : List Char) (fuel : Nat) : Parse (String × Expr) := fun ls => do
  let (column, rest) ← nameOf ls
  let (_, rest) ← symbol "=" rest
  let (e, rest) ← expr text fuel rest
  some ((column, e), rest)

lemma isList_changes (text : List Char) : IsList (change text) (changes text) := by
  intro k ls
  rw [changes.eq_2]
  unfold change
  rcases nameOf ls with - | ⟨column, rest⟩
  · rfl
  change (symbol "=" rest >>= _) = ((symbol "=" rest >>= _) >>= _)
  rcases symbol "=" rest with - | ⟨_, rest⟩
  · rfl
  change (expr text k rest >>= _) = ((expr text k rest >>= _) >>= _)
  rcases expr text k rest with - | ⟨e, rest⟩ <;> rfl

/-- The changes of an update whose values are parameters in order. -/
def changesOf (columns : List String) : List (String × Expr) :=
  columns.zipIdx.map fun p => (p.1, .param p.2)

def changeTokens (columns : List String) : List Token :=
  [Token.symbol ","].intercalate
    (columns.zipIdx.map fun p => [.name p.1 true, .symbol "=", .param (some (p.2 + 1))])

lemma writes_change (c : String) (i : Nat) :
    Writes (quoteName c ++ " = " ++ parameter (i + 1)).toList
      [.name c true, .symbol "=", .param (some (i + 1))] closes := by
  have hparam : Writes (parameter (i + 1)).toList [.param (some (i + 1))] closes :=
    (writes_parameter (i + 1)).mono (closes_imp (by decide))
  rw [String.toList_append, String.toList_append]
  exact ((writes_quoteName c).append writes_equals rfl).append_any hparam

lemma writes_changes (hne : columns ≠ []) :
    Writes (String.intercalate ", "
      (columns.zipIdx.map fun p => quoteName p.1 ++ " = " ++ parameter (p.2 + 1))).toList
      (changeTokens columns) closes :=
  writes_commas (by simpa using hne) fun p _ => writes_change p.1 p.2

lemma reads_changes (text : List Char) (hne : columns ≠ []) :
    Reads (changes text) (columns.length + 9) (changeTokens columns) (· = changesOf columns)
      (fun t => endsOr t && t != .symbol ",") := by
  have hparam : ∀ i, Reads (expr text) 9 [.param (some (i + 1))] (· = .param i) endsOr := fun i =>
    reads_expr (reads_conjunction (reads_negation (reads_ordered (reads_param text i)) rfl))
  have hchange : ∀ c i, Reads (change text) 9 [.name c true, .symbol "=", .param (some (i + 1))]
      (· = (c, .param i)) endsOr := by
    refine fun c i => .token fun _ _ => Reads.token fun _ _ k hk ls more hls hmore => ?_
    obtain ⟨e, rest, hread, rfl, hrest⟩ := hparam i k hk ls more hls hmore
    exact ⟨(c, .param i), rest, by simp [change, nameOf, symbol_self, hread], rfl, hrest⟩
  have hlist := reads_list (isList_changes text) endsOr_comma (by simpa using hne)
    fun p (_ : p ∈ columns.zipIdx) => hchange p.1 p.2
  rw [List.length_zipIdx] at hlist
  exact hlist.mono (Nat.le_refl _) (fun _ => eq_map_of_forall₂) fun _ => id

lemma length_le_changeTokens (columns : List String) :
    columns.length ≤ (changeTokens columns).length + 1 := by
  have hlength := length_le_intercalate (.symbol ",")
    (columns.zipIdx.map fun p => [.name p.1 true, .symbol "=", .param (some (p.2 + 1))])
  rwa [List.length_map, List.length_zipIdx] at hlength

/-! ### Statements -/

lemma reads_filter {fuel : Nat} (h : Reads (expr text) fuel ts P endsOr) :
    Reads (filter? text) fuel (.word "WHERE" :: ts) P endsOr := by
  refine .token fun a b k hk ls more hls hmore => ?_
  rw [filter?, keyword_word (by decide)]
  exact h k hk ls more hls hmore

def updateTokens (table : String) (columns : List String) (filter : List Token) : List Token :=
  .word "UPDATE" :: .name table true :: .word "SET" ::
    (changeTokens columns ++ .word "WHERE" :: filter)

lemma reads_update {fuel : Nat} (table : String) (hne : columns ≠ [])
    (h : Reads (expr text) fuel ts P endsOr) (hfuel : columns.length + 9 ≤ fuel) :
    Reads (statement text) fuel (updateTokens table columns ts)
      (fun st => ∃ e, P e ∧ st = .update table (changesOf columns) e) endsOr := by
  refine .token fun a b => Reads.token fun a₁ b₁ => Reads.token fun a₂ b₂ k hk ls more hls
    hmore => ?_
  rw [List.append_assoc] at hls
  obtain ⟨cs, ls₁, hchanges, rfl, hls₁⟩ := reads_changes text hne k (by omega) ls _ hls rfl
  obtain ⟨e, rest, hfilter, he, hrest⟩ := reads_filter h k hk ls₁ more hls₁ hmore
  refine ⟨_, rest, ?_, ⟨e, he, rfl⟩, hrest⟩
  rw [statement_update, updating, keyword_word (by decide)]
  simp [nameOf, keyword_word (show (upper "SET" == "SET") = true by decide), hchanges, hfilter]

def deleteTokens (table : String) (filter : List Token) : List Token :=
  .word "DELETE" :: .word "FROM" :: .name table true :: .word "WHERE" :: filter

lemma reads_delete {fuel : Nat} (table : String) (h : Reads (expr text) fuel ts P endsOr) :
    Reads (statement text) fuel (deleteTokens table ts)
      (fun st => ∃ e, P e ∧ st = .delete table e) endsOr := by
  refine .token fun a b => Reads.token fun a₁ b₁ => Reads.token fun a₂ b₂ k hk ls more hls
    hmore => ?_
  obtain ⟨e, rest, hfilter, he, hrest⟩ := reads_filter h k hk ls more hls hmore
  refine ⟨_, rest, ?_, ⟨e, he, rfl⟩, hrest⟩
  rw [statement_delete, deletion]
  simp +decide [keywords, keyword_cons, nameOf, hfilter]

end Sql

namespace Naming

lemma parse_restrictedUpdate (n : Naming) (table key : String) (hne : columns ≠ []) {f : Fragment}
    (h : f.IsFinite) :
    ParsesAs (Sql.update table key columns (n.fragment (quoteName table) f)) (fun st => ∃ e,
      st = .update table (changesOf columns) (restriction table key columns.length e) ∧
        f.Denotes n table e) := by
  have htext : Writes (Sql.update table key columns (n.fragment (quoteName table) f)).toList
      (updateTokens table columns
        (restrictionTokens table key columns.length (n.fragmentTokens table f))) anything := by
    have hall := (((writes_update.append_any (writes_quoteName table)).append writes_set
      rfl).append_any (writes_changes hne)).append writes_where rfl
    refine (hall.append_any (writes_restriction table key columns.length
      (n.writes_fragment table h))).of_eq ?_ ?_
    · unfold Sql.update
      simp only [String.toList_append, List.append_assoc]
    · simp only [updateTokens, List.append_assoc, List.cons_append, List.nil_append]
  generalize Sql.update table key columns (n.fragment (quoteName table) f) = sql at *
  have hcount := length_le_changeTokens columns
  have hcondition := (reads_restriction sql.toList table key columns.length
    (reads_condition n table sql.toList h)).more_fuel
      (show _ ≤ 16 * ((updateTokens table columns (restrictionTokens table key columns.length
        (n.fragmentTokens table f))).length + 1) by
        simp only [updateTokens, List.length_append, List.length_cons]
        omega)
  have hread := reads_update table hne hcondition (by
    simp only [updateTokens, List.length_append, List.length_cons]
    omega)
  refine (parse_of_writes htext hread rfl).imp ?_
  rintro st ⟨e, ⟨filter, hfilter, rfl⟩, rfl⟩
  exact ⟨filter, rfl, hfilter⟩

lemma parse_restrictedDelete (n : Naming) (table key : String) {f : Fragment}
    (h : f.IsFinite) :
    ParsesAs (Sql.delete table key (n.fragment (quoteName table) f)) (fun st => ∃ e,
      st = .delete table (restriction table key 0 e) ∧ f.Denotes n table e) := by
  have hfirst : " = ?1 AND (" = " = " ++ parameter 1 ++ " AND (" := by
    rw [parameter, Number.natText, Number.digits]
    decide
  have htext : Writes (Sql.delete table key (n.fragment (quoteName table) f)).toList
      (deleteTokens table (restrictionTokens table key 0 (n.fragmentTokens table f)))
      anything := by
    have hall := (writes_deleteFrom.append_any (writes_quoteName table)).append writes_where rfl
    refine (hall.append_any (writes_restriction table key 0 (n.writes_fragment table h))).of_eq
      ?_ ?_
    · unfold Sql.delete
      rw [hfirst]
      simp only [String.toList_append, List.append_assoc]
    · simp only [deleteTokens, List.cons_append, List.nil_append]
  generalize Sql.delete table key (n.fragment (quoteName table) f) = sql at *
  have hcondition := (reads_restriction sql.toList table key 0
    (reads_condition n table sql.toList h)).more_fuel
      (show _ ≤ 16 * ((deleteTokens table (restrictionTokens table key 0
        (n.fragmentTokens table f))).length + 1) by
        simp only [deleteTokens, List.length_cons]
        omega)
  refine (parse_of_writes htext (reads_delete table hcondition) rfl).imp ?_
  rintro st ⟨e, ⟨filter, hfilter, rfl⟩, rfl⟩
  exact ⟨filter, rfl, hfilter⟩

end Naming

end RowPolicy
