import RowPolicy.Artifact.Render
import RowPolicy.Proofs.Sql.Lexing

/-!
# Tokens of rendered fragments

What the text of a plan is read as. Names and texts stand between quotes, so they are one token
each whatever they hold; everything else in the text is fixed.
-/

namespace RowPolicy

open Sql

namespace Sql

/-- What may follow a condition or a literal. -/
def closes (c : Char) : Bool := c == ' ' || c == ')' || c == ','

lemma closes_imp {p : Char → Bool} (h : p ' ' = true ∧ p ')' = true ∧ p ',' = true) (c : Char)
    (hc : closes c = true) : p c = true := by
  simp only [closes, Bool.or_eq_true, beq_iff_eq] at hc
  rcases hc with (rfl | rfl) | rfl
  · exact h.1
  · exact h.2.1
  · exact h.2.2

lemma Writes.of_eq {cs cs' : List Char} {ts ts' : List Token} {p : Char → Bool}
    (h : Writes cs ts p) (htext : cs' = cs) (htokens : ts' = ts) : Writes cs' ts' p := by
  rwa [htext, htokens]

lemma Writes.intercalate {sep : List Char} {joint : List Token} (hsep : Writes sep joint anything)
    (hhead : sep.head?.any closes = true) {pieces : List (List Char × List Token)}
    (hne : pieces ≠ []) (h : ∀ p ∈ pieces, Writes p.1 p.2 closes) :
    Writes (sep.intercalate (pieces.map Prod.fst)) (joint.intercalate (pieces.map Prod.snd))
      closes := by
  induction pieces with
  | nil => exact absurd rfl hne
  | cons p rest ih =>
    cases rest with
    | nil => simpa [List.intercalate] using h p (by simp)
    | cons q rest =>
      have hrest := ih (by simp) fun p hp => h p (List.mem_cons_of_mem _ hp)
      have hmeet : (sep ++ sep.intercalate ((q :: rest).map Prod.fst)).head?.any closes = true := by
        cases sep with
        | nil => simp at hhead
        | cons c cs => simpa using hhead
      have hall := (h p (by simp)).append (hsep.append_any hrest) hmeet
      simpa [List.intercalate] using hall

lemma Writes.intercalate_map {α : Type} {sep : String} {joint : List Token} {items : List α}
    {text : α → String} {tokens : α → List Token} (hsep : Writes sep.toList joint anything)
    (hhead : sep.toList.head?.any closes = true) (hne : items ≠ [])
    (h : ∀ a ∈ items, Writes (text a).toList (tokens a) closes) :
    Writes (String.intercalate sep (items.map text)).toList (joint.intercalate (items.map tokens))
      closes := by
  have hpieces : ∀ p ∈ items.map fun a => ((text a).toList, tokens a), Writes p.1 p.2 closes :=
    List.forall_mem_map.mpr h
  have hall := hsep.intercalate hhead (by simpa using hne) hpieces
  rw [List.map_map, List.map_map] at hall
  rw [String.toList_intercalate, List.map_map]
  exact hall

lemma writes_commas {α : Type} {items : List α} {text : α → String} {tokens : α → List Token}
    (hne : items ≠ []) (h : ∀ a ∈ items, Writes (text a).toList (tokens a) closes) :
    Writes (String.intercalate ", " (items.map text)).toList
      ([Token.symbol ","].intercalate (items.map tokens)) closes :=
  Writes.intercalate_map (writes_plain (by decide)) (by decide) hne h

def columnTokens (row column : String) : List Token :=
  [.name row true, .symbol ".", .name column true]

lemma head?_quoteName (s : String) : (quoteName s).toList.head? = some '"' := by
  simp [quoteName, enclosed]

lemma writes_columnOf (row column : String) :
    Writes (columnOf (quoteName row) column).toList (columnTokens row column) (· != '"') := by
  have h := ((writes_quoteName row).append writes_dot rfl).append (writes_quoteName column)
    (by rw [head?_quoteName]; rfl)
  simpa [columnOf, columnTokens] using h

end Sql

/-! ### Literals -/

namespace Literal

def signed (negative : Bool) (ts : List Token) : List Token :=
  if negative then .symbol "-" :: ts else ts

def tokens : Literal → List Token
  | .null => [.word "NULL"]
  | .bool b => [.int (if b then "1" else "0")]
  | .int i => signed (i < 0) [.int (Number.natText i.natAbs)]
  | .real x =>
    signed x.isNegative [.real (String.ofList (NumberLayout.positional true x.shortest))]
  | .text s => [.text s]

end Literal

lemma realLiteral_eq {x : Binary64} (hx : x.isFinite = true) :
    realLiteral x = Binary64.signed x.isNegative (NumberLayout.positional true x.shortest) := by
  have hdot : ∀ cs : List Char, cs.all Char.isDigit = true → '.' ∉ cs := by
    intro cs hcs hmem
    exact absurd (List.all_eq_true.mp hcs _ hmem) (by decide)
  have hwhole := hdot _ x.shortest.wholeDigits_all
  rw [realLiteral, Binary64.plainText, Decimal.positional_true, Decimal.positional_false]
  by_cases hexponent : 0 ≤ x.shortest.exponent
  · have hfraction : x.shortest.fractionDigits = ['0'] := by
      simp [Decimal.fractionDigits, hexponent]
    cases hneg : x.isNegative <;>
      simp [hx, hexponent, hfraction, Binary64.signed, hwhole, String.append_assoc]
  · cases hneg : x.isNegative <;> simp [hx, hexponent, Binary64.signed]

lemma writes_signed {negative : Bool} {cs : List Char} {ts : List Token}
    (h : Writes cs ts closes) (hdigit : cs.head?.any Char.isDigit = true) :
    Writes (if negative then '-' :: cs else cs) (Literal.signed negative ts) closes := by
  cases negative with
  | false => exact h
  | true => exact writes_minus.append h hdigit

lemma writes_quoteLiteral {v : Literal} (hv : v.isFinite = true) :
    Writes (quoteLiteral v).toList v.tokens closes := by
  cases v with
  | null =>
    have h : Writes ['N', 'U', 'L', 'L'] [.word "NULL"] endsWord :=
      writes_word (by decide) (by decide)
    exact h.mono (closes_imp (by decide))
  | bool b =>
    have h : ∀ c : Char, c.isDigit = true → Writes [c] [.int (String.ofList [c])] closes := by
      intro c hc
      exact (writes_int (by simp) (by simpa using hc)).mono (closes_imp (by decide))
    cases b with
    | false => exact h '0' (by decide)
    | true => exact h '1' (by decide)
  | int i =>
    have h := (writes_int (Number.digits_ne_nil i.natAbs) (Number.digits_all i.natAbs)).mono
      (closes_imp (by decide))
    have htext : (quoteLiteral (.int i)).toList =
        if decide (i < 0) then '-' :: Number.digits i.natAbs else Number.digits i.natAbs := by
      cases i with
      | ofNat k => simp [quoteLiteral, Number.intText, Number.intChars]
      | negSucc k => simp [quoteLiteral, Number.intText, Number.intChars, Int.negSucc_lt_zero]
    rw [htext]
    exact writes_signed h (Number.head?_isDigit (Number.digits_ne_nil _) (Number.digits_all _))
  | real x =>
    have hne := x.shortest.wholeDigits_ne_nil
    have hall := x.shortest.wholeDigits_all
    have h := (writes_real hne hall x.shortest.fractionDigits_all).mono (closes_imp (by decide))
    have htext : (quoteLiteral (.real x)).toList =
        if x.isNegative then '-' :: NumberLayout.positional true x.shortest
        else NumberLayout.positional true x.shortest := by
      rw [quoteLiteral, realLiteral_eq hv, Binary64.signed, String.toList_ofList]
    rw [← Decimal.positional_true] at h
    rw [htext]
    -- A digit follows the sign, which therefore does not start a comment.
    refine writes_signed h ?_
    have hhead := Number.head?_isDigit hne hall
    obtain ⟨c, cs, hcons⟩ := List.exists_cons_of_ne_nil hne
    rw [Decimal.positional_true, hcons]
    rwa [hcons] at hhead
  | text s => exact (writes_quoteText s).mono (closes_imp (by decide))

/-! ### Fragments -/

namespace Naming

def relatedTokens (n : Naming) (lookup : Lookup) : List Token :=
  let view := n.claimView lookup.claim
  [Token.word "SELECT", .name view true, .symbol ".", .word "related_id", .word "FROM",
    .name view true, .word "WHERE", .word "CAST", .symbol "(", .name view true, .symbol ".",
    .word "principal_id", .word "AS", .word "TEXT", .symbol ")", .symbol "=",
    .word "tg_principal", .symbol "(", .symbol ")"]
  ++ match lookup.property with
    | none => []
    | some filter =>
      Token.word "AND" :: columnTokens view filter.property
        ++ [Token.word "IN", .symbol "("]
        ++ [Token.symbol ","].intercalate (filter.allowed.map Literal.tokens) ++ [Token.symbol ")"]

mutual

def fragmentTokens (n : Naming) (row : String) : Fragment → List Token
  | .always => [.int "1"]
  | .never => [.int "0"]
  | .literalEq column value =>
    match value with
    | .null => columnTokens row column ++ [Token.word "IS", .word "NULL"]
    | v => columnTokens row column ++ .symbol "=" :: v.tokens
  | .principalEq column =>
    [Token.word "CAST", .symbol "("] ++ columnTokens row column
      ++ [Token.word "AS", .word "TEXT", .symbol ")", .symbol "=", .word "tg_principal",
        .symbol "(", .symbol ")"]
  | .inClaim column lookup =>
    columnTokens row column ++ [Token.word "IN", .symbol "("] ++ n.relatedTokens lookup
      ++ [Token.symbol ")"]
  | .all children =>
    if children.isEmpty then [.int "1"]
    else .symbol "(" :: [Token.word "AND"].intercalate (fragmentsTokens n row children)
      ++ [Token.symbol ")"]
  | .any children =>
    if children.isEmpty then [.int "0"]
    else .symbol "(" :: [Token.word "OR"].intercalate (fragmentsTokens n row children)
      ++ [Token.symbol ")"]

def fragmentsTokens (n : Naming) (row : String) : List Fragment → List (List Token)
  | [] => []
  | f :: rest => fragmentTokens n row f :: fragmentsTokens n row rest

end

end Naming

namespace Lookup

def IsFinite (lookup : Lookup) : Prop :=
  ∀ filter, lookup.property = some filter → ∀ v ∈ filter.allowed, v.isFinite = true

end Lookup

namespace Fragment

mutual

def IsFinite : Fragment → Prop
  | .literalEq _ value => value.isFinite = true
  | .inClaim _ lookup => lookup.IsFinite
  | .all children => AreFinite children
  | .any children => AreFinite children
  | _ => True

def AreFinite : List Fragment → Prop
  | [] => True
  | f :: rest => IsFinite f ∧ AreFinite rest

end

lemma areFinite_iff {fs : List Fragment} : AreFinite fs ↔ ∀ f ∈ fs, f.IsFinite := by
  induction fs with
  | nil => simp [AreFinite]
  | cons f rest ih => rw [AreFinite, ih, List.forall_mem_cons]

end Fragment

namespace Naming

/-- The lookup of the principal's rows, before its property filter. -/
lemma writes_principalRows (view : String) :
    Writes ("SELECT " ++ quoteName view ++ ".related_id FROM " ++ quoteName view
        ++ " WHERE CAST(" ++ quoteName view ++ ".principal_id AS TEXT) = " ++ principalFunction
        ++ "()").toList
      [.word "SELECT", .name view true, .symbol ".", .word "related_id", .word "FROM",
        .name view true, .word "WHERE", .word "CAST", .symbol "(", .name view true, .symbol ".",
        .word "principal_id", .word "AS", .word "TEXT", .symbol ")", .symbol "=",
        .word "tg_principal", .symbol "(", .symbol ")"] anything := by
  have hselect : Writes "SELECT ".toList [.word "SELECT"] anything := writes_plain (by decide)
  have hfrom : Writes ".related_id FROM ".toList
      [.symbol ".", .word "related_id", .word "FROM"] anything := writes_plain (by decide)
  have hwhere : Writes " WHERE CAST(".toList [.word "WHERE", .word "CAST", .symbol "("] anything :=
    writes_plain (by decide)
  have hcast : Writes (".principal_id AS TEXT) = " ++ principalFunction ++ "()").toList
      [.symbol ".", .word "principal_id", .word "AS", .word "TEXT", .symbol ")", .symbol "=",
        .word "tg_principal", .symbol "(", .symbol ")"] anything := writes_plain (by decide)
  have hname := writes_quoteName view
  have h := ((((hselect.append_any hname).append hfrom rfl).append hname
    (by rw [head?_quoteName]; rfl)).append hwhere rfl).append hname (by rw [head?_quoteName]; rfl)
  refine (h.append hcast rfl).of_eq ?_ rfl
  simp only [String.toList_append, List.append_assoc]

lemma writes_allowed {allowed : List Literal} (hne : allowed ≠ [])
    (h : ∀ v ∈ allowed, v.isFinite = true) :
    Writes (String.intercalate ", " (allowed.map quoteLiteral)).toList
      ([Token.symbol ","].intercalate (allowed.map Literal.tokens)) closes :=
  writes_commas hne fun v hv => writes_quoteLiteral (h v hv)

lemma writes_relatedIds (n : Naming) {lookup : Lookup} (h : lookup.IsFinite) :
    Writes (n.relatedIds lookup).toList (n.relatedTokens lookup) anything := by
  have hrows := writes_principalRows (n.claimView lookup.claim)
  unfold relatedIds relatedTokens
  cases hproperty : lookup.property with
  | none => exact hrows.of_eq (by simp only [String.append_empty]) (by simp only [List.append_nil])
  | some filter =>
    have hand : Writes " AND ".toList [.word "AND"] anything := writes_plain (by decide)
    have hin : Writes " IN (".toList [.word "IN", .symbol "("] anything := writes_plain (by decide)
    have hclose : Writes ")".toList [.symbol ")"] anything := writes_plain (by decide)
    have hcolumn := writes_columnOf (n.claimView lookup.claim) filter.property
    have hfilter := (hand.append_any hcolumn).append hin rfl
    by_cases hallowed : filter.allowed = []
    · have hall := (hrows.append_any hfilter).append_any hclose
      refine hall.of_eq ?_ ?_
      · simp only [hallowed, List.map_nil, String.toList_append, String.toList_intercalate,
          List.append_assoc, List.intercalate, List.intersperse_nil, List.flatten_nil,
          List.nil_append]
      · simp only [hallowed, List.map_nil, List.intercalate, List.intersperse_nil,
          List.flatten_nil, List.append_assoc, List.cons_append, List.nil_append]
    · have hvalues := writes_allowed hallowed (h filter hproperty)
      have hall := (hrows.append_any (hfilter.append_any hvalues)).append hclose rfl
      refine hall.of_eq ?_ ?_
      · simp only [String.toList_append, List.append_assoc]
      · simp only [List.append_assoc, List.cons_append, List.nil_append]

/-- The conditions of a list are read one by one. -/
def FragmentsWrite (n : Naming) (row : String) (fs : List Fragment) : Prop :=
  ∃ pieces : List (List Char × List Token),
    pieces.map Prod.fst = (n.fragments (quoteName row) fs).map String.toList ∧
    pieces.map Prod.snd = n.fragmentsTokens row fs ∧ ∀ p ∈ pieces, Writes p.1 p.2 closes

/-- A connective: a constant without children, else the children in parentheses. -/
lemma writes_joined {n : Naming} {row : String} {fs : List Fragment}
    (h : n.FragmentsWrite row fs) {empty sep : String} {constant joint : List Token}
    (hempty : Writes empty.toList constant closes) (hsep : Writes sep.toList joint anything)
    (hhead : sep.toList.head?.any closes = true) :
    Writes (if fs.isEmpty then empty
        else "(" ++ String.intercalate sep (n.fragments (quoteName row) fs) ++ ")").toList
      (if fs.isEmpty then constant
        else Token.symbol "(" :: joint.intercalate (n.fragmentsTokens row fs) ++ [Token.symbol ")"])
      closes := by
  cases fs with
  | nil => exact hempty
  | cons f rest =>
    obtain ⟨pieces, htexts, htokens, hwrites⟩ := h
    have hne : pieces ≠ [] := by
      rintro rfl
      simp [fragments] at htexts
    have hopen : Writes "(".toList [.symbol "("] anything := writes_plain (by decide)
    have hclose : Writes ")".toList [.symbol ")"] anything := writes_plain (by decide)
    have hinner := hsep.intercalate hhead hne hwrites
    have hall : Writes _ _ closes :=
      ((hopen.append_any hinner).append hclose rfl).mono fun _ _ => rfl
    refine hall.of_eq ?_ ?_
    · simp only [List.isEmpty_cons, Bool.false_eq_true, if_false, String.toList_append,
        String.toList_intercalate, htexts]
    · simp only [List.isEmpty_cons, Bool.false_eq_true, if_false, htokens, List.cons_append,
        List.nil_append]

mutual

/-- The text of a condition is read as its tokens, whatever names and texts it holds. -/
lemma writes_fragment (n : Naming) (row : String) {f : Fragment} (h : f.IsFinite) :
    Writes (n.fragment (quoteName row) f).toList (n.fragmentTokens row f) closes := by
  have hone : Writes "1".toList [.int "1"] closes :=
    (writes_int (by decide) (by decide)).mono (closes_imp (by decide))
  have hzero : Writes "0".toList [.int "0"] closes :=
    (writes_int (by decide) (by decide)).mono (closes_imp (by decide))
  have hclose : Writes ")".toList [.symbol ")"] closes :=
    Writes.mono (writes_plain (by decide)) (closes_imp (by decide))
  match f with
  | .always =>
    rw [fragment, fragmentTokens]
    exact hone
  | .never =>
    rw [fragment, fragmentTokens]
    exact hzero
  | .literalEq column value =>
    have hcolumn := writes_columnOf row column
    by_cases hnull : value = .null
    · subst hnull
      have his : Writes " IS NULL".toList [.word "IS", .word "NULL"] closes := by
        have hfirst : Writes " IS ".toList [.word "IS"] anything := writes_plain (by decide)
        exact hfirst.append_any (writes_quoteLiteral rfl : Writes _ (Literal.tokens .null) closes)
      rw [fragment, fragmentTokens]
      refine (hcolumn.append his rfl).of_eq ?_ rfl
      simp only [String.toList_append]
    · have heq : Writes " = ".toList [.symbol "="] anything := writes_plain (by decide)
      rw [fragment, fragmentTokens]
      · refine ((hcolumn.append heq rfl).append_any (writes_quoteLiteral h)).of_eq ?_ ?_
        · simp only [String.toList_append]
        · simp only [List.append_assoc, List.cons_append, List.nil_append]
      · exact hnull
      · exact hnull
  | .principalEq column =>
    have hcast : Writes "CAST(".toList [.word "CAST", .symbol "("] anything :=
      writes_plain (by decide)
    have hequals : Writes (" AS TEXT) = " ++ principalFunction ++ "()").toList
        [.word "AS", .word "TEXT", .symbol ")", .symbol "=", .word "tg_principal", .symbol "(",
          .symbol ")"] anything := writes_plain (by decide)
    have hall := (hcast.append_any (writes_columnOf row column)).append hequals rfl
    rw [fragment, fragmentTokens]
    refine (hall.mono (closes_imp (by decide))).of_eq ?_ rfl
    simp only [String.toList_append, List.append_assoc]
  | .inClaim column lookup =>
    have hin : Writes " IN (".toList [.word "IN", .symbol "("] anything := writes_plain (by decide)
    have hall := (((writes_columnOf row column).append hin rfl).append_any
      (n.writes_relatedIds h)).append_any hclose
    rw [fragment, fragmentTokens]
    refine hall.of_eq ?_ rfl
    simp only [String.toList_append]
  | .all children =>
    rw [fragment, fragmentTokens]
    -- Without children there is no joint, only the number that stands for them.
    have hand : Writes " AND ".toList [.word "AND"] anything := writes_plain (by decide)
    exact writes_joined (writes_fragments n row h) hone hand rfl
  | .any children =>
    rw [fragment, fragmentTokens]
    have hor : Writes " OR ".toList [.word "OR"] anything := writes_plain (by decide)
    exact writes_joined (writes_fragments n row h) hzero hor rfl

lemma writes_fragments (n : Naming) (row : String) {fs : List Fragment}
    (h : Fragment.AreFinite fs) : n.FragmentsWrite row fs := by
  match fs with
  | [] => exact ⟨[], rfl, rfl, by simp⟩
  | f :: rest =>
    obtain ⟨pieces, htexts, htokens, hwrites⟩ := writes_fragments n row h.2
    refine ⟨((n.fragment (quoteName row) f).toList, n.fragmentTokens row f) :: pieces, ?_, ?_, ?_⟩
    · simp [fragments, htexts]
    · simp [fragmentsTokens, htokens]
    · exact List.forall_mem_cons.mpr ⟨writes_fragment n row h.1, hwrites⟩

end

end Naming

end RowPolicy
