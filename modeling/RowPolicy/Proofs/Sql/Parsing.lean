import RowPolicy.Proofs.Number.Shortest
import RowPolicy.Proofs.Sql.Reading

/-!
# Parsing of rendered plans

The text of a condition, of a view or of an accessor is parsed as the tree that it was written for.
Only the texts that name unnamed columns depend on where the tokens stand, and nothing looks at
them.
-/

namespace RowPolicy

open Sql

/-! ### Literals -/

def Literal.toExpr : Literal → Sql.Expr
  | .null => .null
  | .bool b => .int (if b then 1 else 0)
  | .int i =>
    if Number.isInt64 i then .int i else .real (Binary64.ofDecimal (i < 0) i.natAbs 0)
  | .real x => .real x
  | .text s => .text s

/-- A finite number is read back from its shortest decimal form. -/
lemma realLiteralOf_shortest {x : Binary64} (hx : x.isFinite = true) :
    realLiteralOf (String.ofList (NumberLayout.positional true x.shortest)) x.isNegative
      = .real x := by
  rw [realLiteralOf, String.toList_ofList, Binary64.readMagnitude_shortest hx, Option.getD_some]

lemma intLiteral_one : intLiteral "1" false = .int 1 := by rfl

lemma intLiteral_zero : intLiteral "0" false = .int 0 := by rfl

lemma intLiteral_natAbs (i : Int) :
    intLiteral (Number.natText i.natAbs) (decide (i < 0)) = Literal.toExpr (.int i) := by
  have hdigits : Number.ofDigits (Number.natText i.natAbs).toList = i.natAbs := by
    rw [Number.natText, String.toList_ofList, Number.ofDigits_digits]
  have hvalue : (if decide (i < 0) = true then -(i.natAbs : Int) else i.natAbs) = i := by
    simp only [decide_eq_true_eq]
    split <;> omega
  simp only [intLiteral, hdigits, hvalue, Literal.toExpr]

lemma reads_literal (text : List Char) {v : Literal} (hv : v.isFinite = true) :
    Reads (operand text) 1 v.tokens (· = v.toExpr) anyToken := by
  cases v with
  | null => exact reads_null text
  | bool b => cases b <;> exact reads_int text _
  | int i =>
    have hvalue := intLiteral_natAbs i
    rw [← hvalue, Literal.tokens]
    cases hneg : decide (i < 0) with
    | false => exact reads_int text _
    | true => exact reads_negativeInt text _
  | real x =>
    have hvalue := realLiteralOf_shortest hv
    rw [Literal.toExpr, ← hvalue, Literal.tokens]
    cases x.isNegative with
    | false => exact reads_real text _
    | true => exact reads_negativeReal text _
  | text s => exact reads_text text s

lemma reads_item (text : List Char) {v : Literal} (hv : v.isFinite = true) :
    Reads (expr text) 9 v.tokens (· = v.toExpr) endsOr := by
  refine reads_expr (reads_conjunction (reads_negation (reads_ordered (reads_literal text hv)) ?_))
  cases v with
  | int i => simp only [Literal.tokens, Literal.signed]; split <;> rfl
  | real x => simp only [Literal.tokens, Literal.signed]; split <;> rfl
  | _ => rfl

/-! ### Lookups -/

/-- The condition on a claim's row that it is the caller's. -/
def ownExpr (view : String) : Sql.Expr :=
  .compare .eq (.cast (.column (some view) "principal_id" false) "TEXT") (.call "tg_principal" [])

/-- The condition on a claim's row that a lookup looks at it. -/
def Lookup.filterExpr (view : String) (lookup : Lookup) : Sql.Expr :=
  match lookup.property with
  | none => ownExpr view
  | some filter =>
    .and [ownExpr view, .inList false (.column (some view) filter.property false)
      (filter.allowed.map Literal.toExpr)]

/-- The query of the related ids of a lookup; `title` is the text of its column. -/
def Lookup.toQuery (view : String) (lookup : Lookup) (title : String) : Sql.Query :=
  .select false [.expr (.column (some view) "related_id" false) none title] (.named view none)
    (lookup.filterExpr view)

lemma reads_isCaller (text : List Char) (row column : String) {t : Token}
    (h : ∀ a b ls, nameOf (⟨t, a, b⟩ :: ls) = some (column, ls)) :
    Reads (negation text) 16
      ([Token.word "CAST", .symbol "("] ++ [Token.name row true, .symbol ".", t]
        ++ [Token.word "AS", .word "TEXT", .symbol ")"] ++ Token.symbol "="
        :: [Token.word "tg_principal", .symbol "(", .symbol ")"])
      (· = .compare .eq (.cast (.column (some row) column false) "TEXT") (.call "tg_principal" []))
      endsEquality := by
  have hcolumn : Reads (expr text) 10 [.name row true, .symbol ".", t]
      (· = .column (some row) column false) endsOr :=
    reads_expr (reads_conjunction (reads_negation (reads_ordered (reads_column text row column h))
      rfl))
  have hprincipal : Reads (ordered text) 13 [.word "tg_principal", .symbol "(", .symbol ")"]
      (· = .call "tg_principal" []) endsOrder :=
    (reads_ordered (reads_principal text)).more_fuel (by decide)
  refine (reads_equation (reads_ordered (reads_cast hcolumn)) rfl hprincipal).mono
    (Nat.le_refl _) ?_ fun _ => id
  rintro e ⟨x, y, ⟨z, rfl, rfl⟩, rfl, rfl⟩
  rfl

lemma reads_allowed (text : List Char) (row column : String) {allowed : List Literal}
    (h : ∀ v ∈ allowed, v.isFinite = true) :
    Reads (negation text) (allowed.length + 13)
      (columnTokens row column ++ .word "IN" ::
        (.symbol "(" :: [Token.symbol ","].intercalate (allowed.map Literal.tokens)
          ++ [Token.symbol ")"]))
      (· = .inList false (.column (some row) column false) (allowed.map Literal.toExpr))
      endsEquality := by
  have hcolumn : Reads (ordered text) (allowed.length + 10) (columnTokens row column)
      (· = .column (some row) column false) endsOrder :=
    (reads_ordered (reads_columnTokens text row column)).more_fuel (by omega)
  have hitems : ∀ x, Reads (fun k => membership text k false x) (allowed.length + 10)
      (.symbol "(" :: [Token.symbol ","].intercalate (allowed.map Literal.tokens)
        ++ [Token.symbol ")"])
      (· = .inList false x (allowed.map Literal.toExpr)) anyToken := by
    intro x
    cases allowed with
    | nil => exact (reads_inNothing text x).more_fuel (by omega)
    | cons v rest =>
      have hlist := reads_list (isList_exprs text) endsOr_comma (List.cons_ne_nil v rest)
        fun u hu => reads_item text (h u hu)
      have hstart : ([.symbol ","].intercalate ((v :: rest).map Literal.tokens)).head?.any
          (fun t => t != .symbol ")" && !t.isWord "VALUES" && !t.isWord "SELECT") = true := by
        rw [List.map_cons, intercalate_cons]
        cases v with
        | int i => simp only [Literal.tokens, Literal.signed]; split <;> rfl
        | real x => simp only [Literal.tokens, Literal.signed]; split <;> rfl
        | bool b => rfl
        | null => rfl
        | text s => rfl
      refine (reads_inItems hlist hstart x).mono (by omega) ?_ fun _ => id
      rintro e ⟨items, hitems, rfl⟩
      rw [eq_map_of_forall₂ hitems]
  refine (reads_in hcolumn rfl hitems).mono (by omega) ?_ fun _ => id
  rintro e ⟨x, rfl, rfl⟩
  rfl

def ownTokens (view : String) : List Token :=
  [Token.word "CAST", .symbol "("] ++ [Token.name view true, .symbol ".", .word "principal_id"]
    ++ [Token.word "AS", .word "TEXT", .symbol ")"] ++ Token.symbol "="
    :: [Token.word "tg_principal", .symbol "(", .symbol ")"]

def Lookup.filterTokens (view : String) (lookup : Lookup) : List Token :=
  match lookup.property with
  | none => ownTokens view
  | some filter =>
    [Token.word "AND"].intercalate [ownTokens view,
      columnTokens view filter.property ++ .word "IN" ::
        (Token.symbol "(" :: [Token.symbol ","].intercalate (filter.allowed.map Literal.tokens)
          ++ [Token.symbol ")"])]

lemma Naming.relatedTokens_eq (n : Naming) (lookup : Lookup) :
    n.relatedTokens lookup =
      .word "SELECT" ::
        ([Token.name (n.claimView lookup.claim) true, .symbol ".", .word "related_id"]
        ++ ((Token.word "FROM" :: [Token.name (n.claimView lookup.claim) true])
          ++ Token.word "WHERE" :: lookup.filterTokens (n.claimView lookup.claim))) := by
  cases hproperty : lookup.property <;>
    simp [relatedTokens, Lookup.filterTokens, ownTokens, hproperty]

lemma length_le_flatMap (sep : Token) (tss : List (List Token)) :
    tss.length ≤ (tss.flatMap fun us => [sep] ++ us).length := by
  induction tss with
  | nil => simp
  | cons us tss ih =>
    rw [List.flatMap_cons, List.length_append, List.length_append, List.length_cons,
      List.length_singleton]
    omega

/-- There are no more pieces than tokens, but for the first. -/
lemma length_le_intercalate (sep : Token) (tss : List (List Token)) :
    tss.length ≤ ([sep].intercalate tss).length + 1 := by
  cases tss with
  | nil => simp
  | cons ts tss =>
    have hrest := length_le_flatMap sep tss
    rw [intercalate_cons, List.length_append, List.length_cons]
    omega

lemma reads_lookupFilter (text : List Char) (view : String) {lookup : Lookup}
    (h : lookup.IsFinite) :
    Reads (expr text) (16 * (lookup.filterTokens view).length + 11) (lookup.filterTokens view)
      (· = lookup.filterExpr view) endsOr := by
  have hown : Reads (negation text) 16 (ownTokens view) (· = ownExpr view) endsEquality :=
    reads_isCaller text view "principal_id" (nameOf_word (by decide))
  unfold Lookup.filterTokens Lookup.filterExpr
  cases hproperty : lookup.property with
  | none =>
    refine (reads_expr (reads_conjunction hown)).more_fuel ?_
    simp [ownTokens]
  | some filter =>
    have hallowed := reads_allowed text view filter.property (h filter hproperty)
    have hlength := length_le_intercalate (.symbol ",") (filter.allowed.map Literal.tokens)
    rw [List.length_map] at hlength
    -- The first condition is on the caller, the second one on the property.
    have hpieces : ∀ p ∈ [(ownTokens view, (· = ownExpr view)),
        (columnTokens view filter.property ++ .word "IN" ::
          (Token.symbol "(" :: [Token.symbol ","].intercalate (filter.allowed.map Literal.tokens)
            ++ [Token.symbol ")"]),
          (· = .inList false (.column (some view) filter.property false)
            (filter.allowed.map Literal.toExpr)))],
        Reads (negation text) (16 * p.1.length + 8) p.1 p.2 endsEquality := by
      intro p hp
      simp only [List.mem_cons, List.not_mem_nil, or_false] at hp
      rcases hp with rfl | rfl
      · exact hown.more_fuel (by simp [ownTokens])
      · refine hallowed.more_fuel ?_
        simp only [List.length_append, List.length_cons]
        omega
    refine (reads_expr (reads_all (by simp) hpieces)).mono (Nat.le_refl _) ?_ fun _ => id
    rintro e ⟨es, hes, rfl⟩
    cases hes with
    | cons hfirst hes =>
      cases hes with
      | cons hsecond hes =>
        cases hes
        rw [hfirst, hsecond]
        rfl

lemma reads_related (n : Naming) (text : List Char) {lookup : Lookup} (h : lookup.IsFinite) :
    Reads (query text) (16 * (n.relatedTokens lookup).length) (n.relatedTokens lookup)
      (fun q => ∃ title, q = lookup.toQuery (n.claimView lookup.claim) title) endsOr := by
  rw [Naming.relatedTokens_eq]
  have hcolumn : Reads (expr text) 10
      [Token.name (n.claimView lookup.claim) true, .symbol ".", .word "related_id"]
      (· = .column (some (n.claimView lookup.claim)) "related_id" false) endsOr :=
    reads_expr (reads_conjunction (reads_negation (reads_ordered
      (reads_column text _ "related_id" (nameOf_word (by decide)))) rfl))
  have houtput := reads_outputsOne (reads_output hcolumn (fun _ => rfl) fun _ => rfl) (by decide)
  have hsource : Reads (fromPart text) 13 (.word "FROM" :: [.name (n.claimView lookup.claim) true])
      (· = .named (n.claimView lookup.claim) none) endsLabel :=
    (reads_from (reads_named text _)).more_fuel (by decide)
  have hfilter := reads_where (reads_lookupFilter text (n.claimView lookup.claim) h)
  have hlength : 1 ≤ (lookup.filterTokens (n.claimView lookup.claim)).length := by
    unfold Lookup.filterTokens
    cases lookup.property <;> simp [ownTokens]
  have houtputs := houtput.more_fuel
    (show 13 ≤ 16 * (lookup.filterTokens (n.claimView lookup.claim)).length + 11 by omega)
  refine (reads_select houtputs (hsource.more_fuel (by omega)) hfilter rfl
    fun more _ => ⟨by rfl, by rfl⟩).mono ?_ ?_ fun _ => id
  · simp only [List.length_append, List.length_cons]
    omega
  · rintro q ⟨o, s, f, ⟨c, ⟨e, title, rfl, rfl⟩, rfl⟩, rfl, rfl, rfl⟩
    exact ⟨title, rfl⟩

/-! ### Fragments -/

namespace Fragment

def literalExpr (row column : String) : Literal → Sql.Expr
  | .null => .same false (.column (some row) column false) .null
  | v => .compare .eq (.column (some row) column false) v.toExpr

mutual

/-- An expression is what a condition on a row is parsed as. -/
def Denotes (n : Naming) (row : String) : Fragment → Sql.Expr → Prop
  | .always, e => e = .int 1
  | .never, e => e = .int 0
  | .literalEq column value, e => e = literalExpr row column value
  | .principalEq column, e =>
    e = .compare .eq (.cast (.column (some row) column false) "TEXT") (.call "tg_principal" [])
  | .inClaim column lookup, e =>
    ∃ title, e = .inQuery false (.column (some row) column false)
      (lookup.toQuery (n.claimView lookup.claim) title)
  | .all children, e =>
    ∃ es, DenoteAll n row children es ∧
      e = if children.isEmpty then .int 1 else chain .and es
  | .any children, e =>
    ∃ es, DenoteAll n row children es ∧
      e = if children.isEmpty then .int 0 else chain .or es

def DenoteAll (n : Naming) (row : String) : List Fragment → List Sql.Expr → Prop
  | [], es => es = []
  | f :: rest, es => ∃ e more, Denotes n row f e ∧ DenoteAll n row rest more ∧ es = e :: more

end

end Fragment

/-- The conditions of a list are read one by one. -/
def Naming.FragmentsRead (n : Naming) (row : String) (text : List Char) (fs : List Fragment) :
    Prop :=
  ∃ pieces : List (Piece Expr), pieces.map Prod.fst = n.fragmentsTokens row fs ∧
    (∀ p ∈ pieces, Reads (negation text) (16 * p.1.length) p.1 p.2 endsEquality) ∧
    ∀ es, AreRead pieces es → Fragment.DenoteAll n row fs es

section

variable {n : Naming} {row : String} {text : List Char}

lemma Naming.FragmentsRead.all {f : Fragment} {fs : List Fragment}
    (h : n.FragmentsRead row text (f :: fs)) :
    Reads (negation text) (16 * (n.fragmentTokens row (.all (f :: fs))).length)
      (n.fragmentTokens row (.all (f :: fs))) (Fragment.Denotes n row (.all (f :: fs)))
      endsEquality := by
  obtain ⟨pieces, htokens, hreads, hdenote⟩ := h
  have hne : pieces ≠ [] := by
    rintro rfl
    simp [fragmentsTokens] at htokens
  have hall := reads_all hne fun p hp => (hreads p hp).more_fuel (Nat.le_add_right _ 8)
  rw [htokens] at hall
  rw [fragmentTokens, List.isEmpty_cons, if_neg (by simp)]
  refine (reads_negation (reads_ordered (reads_paren (reads_expr hall))) rfl).mono ?_ ?_
    fun _ => id
  · simp only [List.length_append, List.length_cons]
    omega
  · rintro e ⟨es, hes, rfl⟩
    rw [Fragment.Denotes]
    exact ⟨es, hdenote es hes, rfl⟩

lemma Naming.FragmentsRead.any {f : Fragment} {fs : List Fragment}
    (h : n.FragmentsRead row text (f :: fs)) :
    Reads (negation text) (16 * (n.fragmentTokens row (.any (f :: fs))).length)
      (n.fragmentTokens row (.any (f :: fs))) (Fragment.Denotes n row (.any (f :: fs)))
      endsEquality := by
  obtain ⟨pieces, htokens, hreads, hdenote⟩ := h
  have hne : pieces ≠ [] := by
    rintro rfl
    simp [fragmentsTokens] at htokens
  have hany := reads_any hne fun p hp => (reads_conjunction (hreads p hp)).more_fuel
    (show 16 * p.1.length + 2 ≤ 16 * p.1.length + 8 by omega)
  rw [htokens] at hany
  rw [fragmentTokens, List.isEmpty_cons, if_neg (by simp)]
  refine (reads_negation (reads_ordered (reads_paren hany)) rfl).mono ?_ ?_ fun _ => id
  · simp only [List.length_append, List.length_cons]
    omega
  · rintro e ⟨es, hes, rfl⟩
    rw [Fragment.Denotes]
    exact ⟨es, hdenote es hes, rfl⟩

end

mutual

/-- The tokens of a condition are parsed as the condition. -/
lemma reads_fragment (n : Naming) (row : String) (text : List Char) {f : Fragment}
    (h : f.IsFinite) :
    Reads (negation text) (16 * (n.fragmentTokens row f).length) (n.fragmentTokens row f)
      (f.Denotes n row) endsEquality := by
  have hcolumn : ∀ column, Reads (ordered text) 4 (columnTokens row column)
      (· = .column (some row) column false) endsOrder := fun column =>
    reads_ordered (reads_columnTokens text row column)
  have hnumber : ∀ s, Reads (negation text) (16 * [Token.int s].length) [.int s]
      (· = intLiteral s false) endsEquality := fun s =>
    (reads_negation (reads_ordered (reads_int text s)) rfl).more_fuel (by simp)
  match f with
  | .always =>
    rw [Naming.fragmentTokens]
    refine (hnumber "1").mono (Nat.le_refl _) ?_ fun _ => id
    rintro e rfl
    rw [Fragment.Denotes, intLiteral_one]
  | .never =>
    rw [Naming.fragmentTokens]
    refine (hnumber "0").mono (Nat.le_refl _) ?_ fun _ => id
    rintro e rfl
    rw [Fragment.Denotes, intLiteral_zero]
  | .literalEq column value =>
    -- Null is tested for, every other literal is compared.
    by_cases hnull : value = .null
    · subst hnull
      rw [Naming.fragmentTokens]
      refine (reads_isNull (hcolumn column) rfl).mono (by simp [columnTokens]) ?_ fun _ => id
      rintro e ⟨x, rfl, rfl⟩
      rw [Fragment.Denotes, Fragment.literalExpr]
    · have hliteral := (reads_ordered (reads_literal text h)).more_fuel (show 3 ≤ 4 by decide)
      rw [Naming.fragmentTokens]
      · refine (reads_equation (hcolumn column) rfl hliteral).mono ?_ ?_ fun _ => id
        · simp only [columnTokens, List.length_append, List.length_cons]
          omega
        · rintro e ⟨x, y, rfl, rfl, rfl⟩
          rw [Fragment.Denotes, Fragment.literalExpr]
          exact hnull
      · exact hnull
  | .principalEq column =>
    have hcaller := reads_isCaller text row column (t := .name column true) fun _ _ _ => rfl
    rw [Naming.fragmentTokens]
    refine hcaller.mono (by simp [columnTokens]) ?_ fun _ => id
    rintro e rfl
    rw [Fragment.Denotes]
  | .inClaim column lookup =>
    have hquery := reads_inQuery (reads_related n text h) (by rw [Naming.relatedTokens_eq]; rfl)
    -- The fuel for the subquery is more than the column before it needs.
    have hlength : 4 ≤ 16 * (n.relatedTokens lookup).length + 1 := by
      rw [Naming.relatedTokens_eq]
      simp only [List.length_append, List.length_cons]
      omega
    have hmember := reads_in ((hcolumn column).more_fuel hlength) rfl hquery
    rw [Naming.fragmentTokens]
    refine (hmember.mono ?_ ?_ fun _ => id).of_tokens ?_
    · simp only [columnTokens, List.length_append, List.length_cons]
      omega
    · rintro e ⟨x, rfl, q, ⟨title, rfl⟩, rfl⟩
      rw [Fragment.Denotes]
      exact ⟨title, rfl⟩
    · simp
  | .all [] =>
    rw [Naming.fragmentTokens]
    refine (hnumber "1").mono (Nat.le_refl _) ?_ fun _ => id
    rintro e rfl
    rw [Fragment.Denotes, intLiteral_one]
    exact ⟨[], by rw [Fragment.DenoteAll], rfl⟩
  | .all (f :: fs) => exact Naming.FragmentsRead.all (reads_fragments n row text h)
  | .any [] =>
    rw [Naming.fragmentTokens]
    refine (hnumber "0").mono (Nat.le_refl _) ?_ fun _ => id
    rintro e rfl
    rw [Fragment.Denotes, intLiteral_zero]
    exact ⟨[], by rw [Fragment.DenoteAll], rfl⟩
  | .any (f :: fs) => exact Naming.FragmentsRead.any (reads_fragments n row text h)

lemma reads_fragments (n : Naming) (row : String) (text : List Char) {fs : List Fragment}
    (h : Fragment.AreFinite fs) : n.FragmentsRead row text fs := by
  match fs with
  | [] =>
    refine ⟨[], rfl, by simp, fun es hes => ?_⟩
    cases hes
    rw [Fragment.DenoteAll]
  | f :: rest =>
    obtain ⟨pieces, htokens, hreads, hdenote⟩ := reads_fragments n row text h.2
    refine ⟨(n.fragmentTokens row f, f.Denotes n row) :: pieces, ?_, ?_, ?_⟩
    · rw [Naming.fragmentsTokens, List.map_cons, htokens]
    · exact List.forall_mem_cons.mpr ⟨reads_fragment n row text h.1, hreads⟩
    · intro es hes
      cases hes with
      | cons he hrest =>
        rw [Fragment.DenoteAll]
        exact ⟨_, _, he, hdenote _ hrest, rfl⟩

end

end RowPolicy
