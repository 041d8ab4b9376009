import RowPolicy.Proofs.Sql.Parsing

/-!
# The structure of rendered conditions

The text of a condition is one expression, and its tree is that of the condition, whatever the
names and values in it hold. So a text determines its condition, up to what SQL writes in the same
way: truth values are numbers, a connective without children is a constant, and one with a single
child is that child.
-/

namespace RowPolicy

open Sql

/-! ### Whole texts -/

namespace Sql

/-- Lexemes read as one expression with nothing behind it. -/
def wholeExpr (text : List Char) (ls : List Lexeme) : Option Expr :=
  match expr text (16 * (ls.length + 1)) ls with
  | some (e, []) => some e
  | _ => none

def readExpr (s : String) : Option Expr :=
  wholeExpr s.toList (lexFrom s.toList.length s.toList.length s.toList)

lemma wholeExpr_of_reads {text : List Char} {ls : List Lexeme} {P : Expr → Prop}
    {stop : Token → Bool}
    (h : Reads (expr text) (16 * (ls.length + 1)) (ls.map Lexeme.token) P stop) :
    ∃ e, wholeExpr text ls = some e ∧ P e := by
  obtain ⟨e, rest, hread, he, hrest⟩ := h _ (Nat.le_refl _) ls [] (List.append_nil _).symm rfl
  rw [List.map_eq_nil_iff] at hrest
  subst hrest
  exact ⟨e, by rw [wholeExpr, hread], he⟩

/-- Characters that form no token are part of no expression. -/
lemma wholeExpr_of_illegal {text : List Char} {ls : List Lexeme}
    (h : Token.illegal ∈ ls.map Lexeme.token) : wholeExpr text ls = none := by
  obtain ⟨l, hl, hillegal⟩ := List.mem_map.mp h
  unfold wholeExpr
  split
  next e hread =>
    obtain ⟨read, heq, hlegal⟩ := (PassesAt.all text _).expr.behind hread
    rw [List.append_nil] at heq
    exact absurd hillegal (hlegal l (heq ▸ hl))
  next => rfl

/-- Where a null character ends the text, the text is no expression. -/
lemma wholeExpr_lex_cases {s : String} {ts : List Token} {next : Char → Bool}
    (h : Writes s.toList ts next) :
    NoNull s.toList ∧ wholeExpr s.toList (lex s) = readExpr s ∨
      ¬ NoNull s.toList ∧ wholeExpr s.toList (lex s) = none := by
  by_cases hnull : NoNull s.toList
  · refine .inl ⟨hnull, ?_⟩
    have huntil := untilNull_of_noNull hnull []
    rw [List.append_nil, show untilNull [] = [] from rfl, List.append_nil] at huntil
    rw [readExpr, lex, ← untilNull, huntil]
  · refine .inr ⟨hnull, ?_⟩
    obtain ⟨us, htokens, -⟩ := h.broken hnull
    refine wholeExpr_of_illegal ?_
    rw [map_token_lex, ← untilNull, htokens]
    simp

/-- Where a null character ends the text, the text is read as before or not at all. -/
lemma wholeExpr_lex {s : String} {ts : List Token} {next : Char → Bool}
    (h : Writes s.toList ts next) :
    wholeExpr s.toList (lex s) = readExpr s ∨ wholeExpr s.toList (lex s) = none :=
  (wholeExpr_lex_cases h).imp And.right And.right

end Sql

/-! ### Normal forms -/

namespace Literal

/-- What a literal is read as: a truth value is a number, and so is an integer that 64 bits do not
hold. -/
def normal : Literal → Literal
  | .bool b => .int (if b then 1 else 0)
  | .int i => if Number.isInt64 i then .int i else .real (Binary64.ofDecimal (i < 0) i.natAbs 0)
  | v => v

end Literal

/-- What a lookup is read as. -/
def Lookup.normal (lookup : Lookup) : Lookup :=
  { lookup with
    property := lookup.property.map fun p => { p with allowed := p.allowed.map Literal.normal } }

namespace Fragment

/-- A connective of normal forms: a constant without children, a single child is itself. -/
def joined (constant : Fragment) (wrap : List Fragment → Fragment) : List Fragment → Fragment
  | [] => constant
  | [f] => f
  | fs => wrap fs

mutual

/-- What a condition is read as. -/
def normal : Fragment → Fragment
  | .literalEq column value => .literalEq column value.normal
  | .inClaim column lookup => .inClaim column lookup.normal
  | .all children => joined .always .all (normals children)
  | .any children => joined .never .any (normals children)
  | .always => .always
  | .never => .never
  | .principalEq column => .principalEq column

def normals : List Fragment → List Fragment
  | [] => []
  | f :: rest => normal f :: normals rest

end

end Fragment

/-! ### Conditions of trees -/

namespace Sql

namespace Expr

def toLiteral : Expr → Literal
  | .int i => .int i
  | .real x => .real x
  | .text s => .text s
  | _ => .null

/-- The property that the condition of a lookup asks for. -/
def property? : Expr → Option PropertyFilter
  | .and [_, .inList _ (.column _ property _) items] => some ⟨property, items.map toLiteral⟩
  | _ => none

end Expr

/-- The lookup of a query. -/
def Query.toLookup (n : Naming) : Query → Lookup
  | .select _ _ (.named view _) filter =>
    ⟨String.ofList (view.toList.drop (n.claimView "").toList.length), filter.property?⟩
  | _ => default

namespace Expr

mutual

/-- The condition that an expression writes, in normal form. -/
def toFragment (n : Naming) : Expr → Fragment
  | .int i => if i = 1 then .always else .never
  | .same _ (.column _ name _) _ => .literalEq name .null
  | .compare _ (.column _ name _) e => .literalEq name e.toLiteral
  | .compare _ (.cast (.column _ name _) _) _ => .principalEq name
  | .inQuery _ (.column _ name _) q => .inClaim name (q.toLookup n)
  | .and es => .all (toFragments n es)
  | .or es => .any (toFragments n es)
  | _ => .never

def toFragments (n : Naming) : List Expr → List Fragment
  | [] => []
  | e :: rest => toFragment n e :: toFragments n rest

end

end Expr

end Sql

lemma Literal.toLiteral_toExpr (v : Literal) : v.toExpr.toLiteral = v.normal := by
  cases v with
  | int i =>
    rw [toExpr, normal]
    split <;> rfl
  | _ => rfl

lemma Lookup.toLookup_toQuery (n : Naming) (lookup : Lookup) (title : String) :
    (lookup.toQuery (n.claimView lookup.claim) title).toLookup n = lookup.normal := by
  have hclaim : String.ofList ((n.claimView lookup.claim).toList.drop
      (n.claimView "").toList.length) = lookup.claim := by
    have happend : (n.claimView lookup.claim).toList
        = (n.claimView "").toList ++ lookup.claim.toList := by
      simp [Naming.claimView, String.toList_append]
    rw [happend, List.drop_left, String.ofList_toList]
  obtain ⟨claim, property⟩ := lookup
  cases property with
  | none => simp [toQuery, filterExpr, ownExpr, Query.toLookup, Expr.property?, normal, hclaim]
  | some filter =>
    simp [toQuery, filterExpr, Query.toLookup, Expr.property?, normal, hclaim, Function.comp_def,
      Literal.toLiteral_toExpr]

namespace Fragment

/-- The tree of a connective: its children decide between a constant, one of them and a node. -/
lemma DenoteAll.toFragment_connective {n : Naming} {row : String} {fs : List Fragment}
    {es : List Expr} (h : DenoteAll n row fs es) {constant : Fragment}
    {wrap : List Fragment → Fragment} {empty : Expr} {node : List Expr → Expr}
    (hempty : empty.toFragment n = constant)
    (hnode : ∀ es, (node es).toFragment n = wrap (Expr.toFragments n es)) :
    (if fs.isEmpty then empty else chain node es).toFragment n
      = joined constant wrap (Expr.toFragments n es) := by
  cases fs with
  | nil =>
    rw [DenoteAll] at h
    subst h
    simp [hempty, Expr.toFragments, joined]
  | cons f rest =>
    rw [DenoteAll] at h
    obtain ⟨e, more, -, -, rfl⟩ := h
    cases more with
    | nil => simp [chain, Expr.toFragments, joined]
    | cons e' more => simp [chain, hnode, Expr.toFragments, joined]

mutual

/-- The tree of a condition determines its normal form. -/
lemma Denotes.toFragment {n : Naming} {row : String} {f : Fragment} {e : Expr}
    (h : f.Denotes n row e) : e.toFragment n = f.normal := by
  match f with
  | .always =>
    rw [Denotes] at h
    rw [h, Expr.toFragment, if_pos rfl, normal]
  | .never =>
    rw [Denotes] at h
    rw [h, Expr.toFragment, if_neg (by decide), normal]
  | .literalEq column value =>
    rw [Denotes] at h
    rw [h, normal]
    by_cases hnull : value = .null
    · subst hnull
      simp [literalExpr, Expr.toFragment, Literal.normal]
    · rw [literalExpr, Expr.toFragment, Literal.toLiteral_toExpr]
      exact hnull
  | .principalEq column =>
    rw [Denotes] at h
    rw [h, Expr.toFragment, normal]
  | .inClaim column lookup =>
    rw [Denotes] at h
    obtain ⟨title, rfl⟩ := h
    rw [Expr.toFragment, Lookup.toLookup_toQuery, normal]
  | .all children | .any children =>
    rw [Denotes] at h
    obtain ⟨es, hes, rfl⟩ := h
    rw [normal, ← hes.toFragments]
    exact hes.toFragment_connective (by simp [Expr.toFragment]) fun es => by rw [Expr.toFragment]

lemma DenoteAll.toFragments {n : Naming} {row : String} {fs : List Fragment} {es : List Expr}
    (h : DenoteAll n row fs es) : Expr.toFragments n es = normals fs := by
  match fs with
  | [] =>
    rw [DenoteAll] at h
    rw [h, Expr.toFragments, normals]
  | f :: rest =>
    rw [DenoteAll] at h
    obtain ⟨e, more, he, hmore, rfl⟩ := h
    rw [Expr.toFragments, normals, he.toFragment, DenoteAll.toFragments hmore]

end

end Fragment

/-! ### Texts -/

/-- The text of a condition is an expression with the condition's tree. -/
lemma readExpr_fragment (n : Naming) (row : String) {f : Fragment} (h : f.IsFinite) :
    ∃ e, readExpr (n.fragment (quoteName row) f) = some e ∧ f.Denotes n row e := by
  have hspells := (n.writes_fragment row h).spells [] rfl
  rw [List.append_nil, tokens_nil, List.append_nil] at hspells
  unfold readExpr
  generalize (n.fragment (quoteName row) f).toList = cs at hspells
  have htokens : (lexFrom cs.length cs.length cs).map Lexeme.token = n.fragmentTokens row f := by
    rw [map_token_lexFrom (Nat.le_refl _), hspells]
  have hread := reads_expr (reads_conjunction (reads_fragment n row cs h))
  rw [← htokens, List.length_map] at hread
  exact wholeExpr_of_reads (hread.more_fuel (by omega))

/-- The text of a condition is read as one expression, with the condition's own tree; where a null
character ends it, it is read so or not at all. Conditions with one text have one normal form. -/
theorem fragment_structure (n : Naming) (row : String) (f : Fragment) (hf : f.IsFinite) :
    (∃ e, readExpr (n.fragment (quoteName row) f) = some e ∧ f.Denotes n row e) ∧
      (∀ e, wholeExpr (n.fragment (quoteName row) f).toList (lex (n.fragment (quoteName row) f))
        = some e → f.Denotes n row e) ∧
      ∀ g : Fragment, g.IsFinite →
        n.fragment (quoteName row) g = n.fragment (quoteName row) f → g.normal = f.normal := by
  obtain ⟨e, hread, he⟩ := readExpr_fragment n row hf
  refine ⟨⟨e, hread, he⟩, fun e' he' => ?_, fun g hg htext => ?_⟩
  · rcases wholeExpr_lex (n.writes_fragment row hf) with hcut | hcut
    · rw [he', hread, Option.some.injEq] at hcut
      exact hcut ▸ he
    · rw [hcut] at he'
      cases he'
  · obtain ⟨e', hread', he'⟩ := readExpr_fragment n row hg
    rw [htext, hread, Option.some.injEq] at hread'
    rw [← he'.toFragment, ← he.toFragment, hread']

/-- Quotes in names and values stay inside them, and a single child does not show its connective. -/
theorem fragment_structure_quotes :
    (Fragment.all [.literalEq "a\"b" (.text "' OR '1")]).IsFinite ∧
      (Fragment.any [.literalEq "a\"b" (.text "' OR '1")]).IsFinite ∧
      (∃ e, readExpr "(\"t\".\"a\"\"b\" = ''' OR ''1')" = some e ∧
        (Fragment.all [.literalEq "a\"b" (.text "' OR '1")]).Denotes ⟨"tg_"⟩ "t" e) ∧
      (Fragment.any [.literalEq "a\"b" (.text "' OR '1")]).normal
        = (Fragment.all [.literalEq "a\"b" (.text "' OR '1")]).normal := by
  have hall : (Fragment.all [.literalEq "a\"b" (.text "' OR '1")]).IsFinite := by
    simp [Fragment.IsFinite, Fragment.AreFinite, Literal.isFinite]
  have hany : (Fragment.any [.literalEq "a\"b" (.text "' OR '1")]).IsFinite := by
    simp [Fragment.IsFinite, Fragment.AreFinite, Literal.isFinite]
  have htext : Naming.fragment ⟨"tg_"⟩ (quoteName "t") (.all [.literalEq "a\"b" (.text "' OR '1")])
      = "(\"t\".\"a\"\"b\" = ''' OR ''1')" := by
    decide
  obtain ⟨hread, -, hsame⟩ := fragment_structure ⟨"tg_"⟩ "t" _ hall
  rw [htext] at hread
  exact ⟨hall, hany, hread, hsame _ hany (by decide)⟩

end RowPolicy
