import RowPolicy.Proofs.Access.Columns
import RowPolicy.Proofs.Database.Affinities
import RowPolicy.Proofs.Sql.Intact
import RowPolicy.Proofs.Sql.Structure

/-!
# Filters on the properties of claims

A property check looks at those of the caller's rows of a claim whose property is one of several
literals. Elsewhere a column is compared with one literal at a time. Both ways agree on every
literal but null: a column can be null, but null is not found among values.
-/

namespace RowPolicy

open Sql

namespace Database

variable {db : Database} {env : Env} {name : String} {row : List Cell}

def HasRow (db : Database) (env : Env) (name : String) (row : List Cell) : Prop :=
  ∃ source headings hasRowId, (db.binder true).find name = .ok (source, headings, hasRowId) ∧
    row ∈ source.rows db env

/-- An expression is true for a row of a table or a view. -/
def IsTrueFor (db : Database) (env : Env) (name : String) (row : List Cell) (e : Sql.Expr) : Prop :=
  ∃ source headings hasRowId bound a,
    (db.binder true).find name = .ok (source, headings, hasRowId) ∧
    (db.binder true).expr [⟨name, headings, hasRowId⟩] e = .ok (bound, a) ∧
    (bound.eval db env [row]).truth = some true

/-- A row of a table or a view passes the filter of a selection from it. -/
def Passes (db : Database) (env : Env) (name : String) (row : List Cell) (sql : String) : Prop :=
  ∃ distinct outputs e,
    parse sql = .one (.query (.select distinct outputs (.named name none) e)) [] ∧
    db.IsTrueFor env name row e

/-- The text of a condition is true for a row of a table or a view. -/
def Satisfies (db : Database) (env : Env) (name : String) (row : List Cell) (text : String) :
    Prop :=
  ∃ e, wholeExpr text.toList (lex text) = some e ∧ db.IsTrueFor env name row e

lemma isTrueFor_iff {source : BoundSource} {headings : List Heading} {hasRowId : Bool}
    (hfind : (db.binder true).find name = .ok (source, headings, hasRowId)) {e : Sql.Expr}
    {p : Prop} {t : Truth}
    (hok : ((db.binder true).expr [⟨name, headings, hasRowId⟩] e).isOk = true ↔ p)
    (heval : ∀ bound a, (db.binder true).expr [⟨name, headings, hasRowId⟩] e = .ok (bound, a) →
      bound.eval db env [row] = t.toCell) :
    db.IsTrueFor env name row e ↔ p ∧ t = some true := by
  constructor
  · rintro ⟨source', headings', hasRowId', bound, a, hfind', hbound, htrue⟩
    cases hfind.symm.trans hfind'
    rw [heval bound a hbound, Truth.truth_toCell] at htrue
    exact ⟨hok.mp (isOk_iff.mpr ⟨_, hbound⟩), htrue⟩
  · rintro ⟨hp, rfl⟩
    obtain ⟨⟨bound, a⟩, hbound⟩ := isOk_iff.mp (hok.mpr hp)
    exact ⟨source, headings, hasRowId, bound, a, hfind, hbound, by
      rw [heval bound a hbound, Truth.truth_toCell]⟩

end Database

/-! ### Texts -/

variable {column : String} {v : Literal}

namespace Naming

variable {n : Naming} {claim property : String} {allowed : List Literal}

lemma noNull_membership : NoNull (n.relatedIds ⟨claim, none⟩).toList ↔
    NoNull (quoteName (n.claimView claim)).toList := by
  have hselect : NoNull "SELECT ".toList := noNull_iff.mpr rfl
  have hfrom : NoNull ".related_id FROM ".toList := noNull_iff.mpr rfl
  have hwhere : NoNull " WHERE CAST(".toList := noNull_iff.mpr rfl
  have hcast : NoNull ".principal_id AS TEXT) = ".toList := noNull_iff.mpr rfl
  have hcall : NoNull principalFunction.toList ∧ NoNull "()".toList :=
    ⟨noNull_iff.mpr rfl, noNull_iff.mpr rfl⟩
  unfold relatedIds
  simp only [String.append_empty, noNull_text_append, hselect, hfrom, hwhere, hcast, hcall,
    true_and, and_true, and_self]

lemma relatedIds_property : n.relatedIds ⟨claim, some ⟨property, allowed⟩⟩ =
    n.relatedIds ⟨claim, none⟩ ++ (" AND " ++ columnOf (quoteName (n.claimView claim)) property
      ++ " IN (" ++ String.intercalate ", " (allowed.map quoteLiteral) ++ ")") := by
  unfold relatedIds
  simp only [String.append_empty]

lemma noNull_relatedIds : NoNull (n.relatedIds ⟨claim, some ⟨property, allowed⟩⟩).toList ↔
    NoNull (n.relatedIds ⟨claim, none⟩).toList ∧ NoNull (quoteName property).toList ∧
      ∀ v ∈ allowed, NoNull (quoteLiteral v).toList := by
  have hallowed : NoNull (String.intercalate ", " (allowed.map quoteLiteral)).toList ↔
      ∀ v ∈ allowed, NoNull (quoteLiteral v).toList := by
    rw [noNull_intercalate (noNull_iff.mpr rfl), List.forall_mem_map]
  have hplain : NoNull " AND ".toList ∧ NoNull " IN (".toList ∧ NoNull ")".toList :=
    ⟨noNull_iff.mpr rfl, noNull_iff.mpr rfl, noNull_iff.mpr rfl⟩
  simp only [relatedIds_property, noNull_text_append, noNull_columnOf, noNull_membership, hallowed,
    hplain, true_and, and_true]
  exact ⟨fun h => ⟨h.1, h.2.1.2, h.2.2⟩, fun h => ⟨h.1, ⟨h.1, h.2.1⟩, h.2.2⟩⟩

lemma noNull_literalEq {row : String} (hv : v ≠ .null) :
    NoNull (n.fragment row (.literalEq column v)).toList ↔
      NoNull row.toList ∧ NoNull (quoteName column).toList ∧ NoNull (quoteLiteral v).toList := by
  rw [fragment.eq_def]
  cases v <;> simp_all [and_assoc]

end Naming

/-- The statement of a lookup is a selection from the view of its claim, unless a null character
cuts it off. -/
lemma parse_relatedIds (n : Naming) {lookup : Lookup} (h : lookup.IsFinite) :
    ParsesAs (n.relatedIds lookup) fun st =>
      ∃ title, st = .query (lookup.toQuery (n.claimView lookup.claim) title) := by
  have hread := (reads_queryStatement (reads_related n (n.relatedIds lookup).toList h)).more_fuel
    (show _ ≤ 16 * ((n.relatedTokens lookup).length + 1) by omega)
  have hstart : (n.relatedTokens lookup).head?.any (· != .symbol ";") = true := by
    rw [n.relatedTokens_eq]
    rfl
  refine (parse_of_writes (n.writes_relatedIds h) hread hstart).imp ?_
  rintro st ⟨q, ⟨title, rfl⟩, rfl⟩
  exact ⟨title, rfl⟩

/-- A condition with a null character in it is no expression. -/
lemma wholeExpr_literalEq (n : Naming) (row column : String) (hv : v.isFinite = true)
    (e : Sql.Expr) :
    wholeExpr (n.fragment (quoteName row) (.literalEq column v)).toList
        (lex (n.fragment (quoteName row) (.literalEq column v))) = some e ↔
      NoNull (n.fragment (quoteName row) (.literalEq column v)).toList ∧
        e = Fragment.literalExpr row column v := by
  have hfinite : (Fragment.literalEq column v).IsFinite := hv
  obtain ⟨e', hread, he'⟩ := readExpr_fragment n row hfinite
  rw [Fragment.Denotes] at he'
  subst he'
  obtain ⟨hnull, hwhole⟩ | ⟨hnull, hwhole⟩ := wholeExpr_lex_cases (n.writes_fragment row hfinite)
  · rw [hwhole, hread, Option.some.injEq, eq_comm]
    exact ⟨fun he => ⟨hnull, he⟩, And.right⟩
  · rw [hwhole]
    exact iff_of_false nofun fun h => hnull h.1

lemma Fragment.literalTruth_of_ne {row : RowValues} (hv : v ≠ .null) :
    literalTruth row column v =
      Cell.compareWith .eq (row.affinity column) (row.cell column) v.cell := by
  cases v with
  | null => exact absurd rfl hv
  | bool _ | int _ | real _ | text _ => rfl

/-- A value of a column is found among literals if it equals one of them, which is not null. -/
lemma Cell.IsKept.among_literals {x : Cell} {a : Affinity} (h : x.IsKept a)
    {allowed : List Literal} : among a x (allowed.map Literal.cell) = some true ↔
      ∃ v ∈ allowed, v ≠ .null ∧ compareWith .eq a x v.cell = some true := by
  simp only [among_eq_true, List.mem_map, exists_exists_and_eq_and, h.matches_iff,
    compareWith_eq_true]
  refine exists_congr fun v => and_congr_right fun _ => ⟨fun hequals => ⟨?_, hequals⟩, And.right⟩
  rintro rfl
  exact hequals.2.1 rfl

lemma Scope.Holds.isKept {s : Scope} {frame : List Cell} (h : s.Holds frame) (column : String) :
    (s.cell frame column).IsKept (s.affinity column) := by
  unfold Scope.cell Scope.affinity
  cases hcolumn : Binder.columnOf? s column with
  | none => exact Cell.isKept_none _
  | some found => exact Binder.columnOf?_isKept h hcolumn

namespace Database

variable {db : Database} {env : Env} {n : Naming} {row : List Cell}

lemma passes_relatedIds {lookup : Lookup} (h : lookup.IsFinite) :
    db.Passes env (n.claimView lookup.claim) row (n.relatedIds lookup) ↔
      NoNull (n.relatedIds lookup).toList ∧
        db.IsTrueFor env (n.claimView lookup.claim) row
          (lookup.filterExpr (n.claimView lookup.claim)) := by
  obtain ⟨hnull, _, hparse, title, rfl⟩ | ⟨hnull, hparse⟩ := parse_relatedIds n h
  · rw [Passes, hparse]
    constructor
    · rintro ⟨distinct, outputs, e, hst, he⟩
      cases hst
      exact ⟨hnull, he⟩
    · rintro ⟨-, he⟩
      exact ⟨_, _, _, rfl, he⟩
  · rw [Passes, hparse]
    exact iff_of_false (by rintro ⟨_, _, _, hst, -⟩; cases hst) fun h => hnull h.1

lemma satisfies_literalEq {name : String} (hv : v.isFinite = true) :
    db.Satisfies env name row (n.fragment (quoteName name) (.literalEq column v)) ↔
      NoNull (n.fragment (quoteName name) (.literalEq column v)).toList ∧
        db.IsTrueFor env name row (Fragment.literalExpr name column v) := by
  simp only [Satisfies, wholeExpr_literalEq n name column hv, and_assoc, exists_and_left,
    exists_eq_left]

/-! ### Rows -/

section

variable {name : String} {source : BoundSource} {headings : List Heading} {hasRowId : Bool}

lemma isTrueFor_literal (hfind : (db.binder true).find name = .ok (source, headings, hasRowId)) :
    db.IsTrueFor env name row (Fragment.literalExpr name column v) ↔
      (Scope.mk name headings hasRowId).Has column ∧
        Fragment.literalTruth ((Scope.mk name headings hasRowId).values row) column v = some true :=
  isTrueFor_iff hfind (Binder.literal_isOk (s := ⟨name, headings, hasRowId⟩) (Binder.covers_nil _))
    fun _ _ h =>
      Binder.literal_eq_ok (s := ⟨name, headings, hasRowId⟩) (Binder.covers_nil _) h row []

variable {claim property : String} {allowed : List Literal}

lemma isTrueFor_membership
    (hfind : (db.binder true).find (n.claimView claim) = .ok (source, headings, hasRowId)) :
    db.IsTrueFor env (n.claimView claim) row
        (Lookup.filterExpr (n.claimView claim) ⟨claim, none⟩) ↔
      (Scope.mk (n.claimView claim) headings hasRowId).Has "principal_id" ∧
        ((db.binder true).surroundings db env n).isCaller
          ((Scope.mk (n.claimView claim) headings hasRowId).cell row "principal_id") =
        some true := by
  let s : Scope := ⟨n.claimView claim, headings, hasRowId⟩
  refine isTrueFor_iff hfind ((Binder.admits_isOk (s := s) (Binder.covers_nil s)).trans ?_)
    fun _ _ h => Binder.admits_eq_ok (s := s) (Binder.covers_nil s) h rfl ?_ row []
  · exact ⟨fun h => h.2.1, fun h => ⟨rfl, h, nofun⟩⟩
  · exact congrArg ClaimRows.property (Binder.claimRows_eq db env hfind)

lemma isTrueFor_property
    (hfind : (db.binder true).find (n.claimView claim) = .ok (source, headings, hasRowId)) :
    db.IsTrueFor env (n.claimView claim) row
        (Lookup.filterExpr (n.claimView claim) ⟨claim, some ⟨property, allowed⟩⟩) ↔
      db.IsTrueFor env (n.claimView claim) row
          (Lookup.filterExpr (n.claimView claim) ⟨claim, none⟩) ∧
        (Scope.mk (n.claimView claim) headings hasRowId).Has property ∧
        Cell.among ((Scope.mk (n.claimView claim) headings hasRowId).affinity property)
          ((Scope.mk (n.claimView claim) headings hasRowId).cell row property)
          (allowed.map Literal.cell) = some true := by
  let s : Scope := ⟨n.claimView claim, headings, hasRowId⟩
  have hproperty := congrArg ClaimRows.property (Binder.claimRows_eq db env hfind)
  have hok : ((db.binder true).expr [s]
      (Lookup.filterExpr (n.claimView claim) ⟨claim, some ⟨property, allowed⟩⟩)).isOk = true ↔ _ :=
    Binder.admits_isOk (Binder.covers_nil s)
  rw [isTrueFor_iff hfind hok fun _ _ h =>
      Binder.admits_eq_ok (s := s) (w := (db.binder true).surroundings db env n)
        (Binder.covers_nil s) h rfl hproperty row [],
    isTrueFor_membership hfind, Surroundings.admits]
  simp only [Truth.and_eq_true, Option.some.injEq, forall_eq']
  rw [show (((db.binder true).surroundings db env n).claims claim).property = _ from hproperty]
  constructor
  · rintro ⟨⟨-, hprincipal, hhas⟩, hcaller, hamong⟩
    exact ⟨⟨hprincipal, hcaller⟩, hhas, hamong⟩
  · rintro ⟨⟨hprincipal, hcaller⟩, hhas, hamong⟩
    exact ⟨⟨rfl, hprincipal, hhas⟩, hcaller, hamong⟩

end

/-- A row of a claim passes the filter of a property check if it is the caller's and its property
equals one of the literals, as a condition on the property would have it. Null is left out, and a
null character in one of the literals makes the filter no filter at all. -/
theorem passes_property_iff (hlawful : ∀ t ∈ db.tables, t.IsLawful) {column claim property : String}
    {allowed : List Literal}
    (hvalid : (Predicate.propertyCheck column claim property allowed).validate = .ok ())
    (hrow : db.HasRow env (n.claimView claim) row) :
    db.Passes env (n.claimView claim) row (n.relatedIds ⟨claim, some ⟨property, allowed⟩⟩) ↔
      db.Passes env (n.claimView claim) row (n.relatedIds ⟨claim, none⟩) ∧
      (∀ v ∈ allowed, NoNull (quoteLiteral v).toList) ∧
      ∃ v ∈ allowed, v ≠ .null ∧ db.Satisfies env (n.claimView claim) row
        (n.fragment (quoteName (n.claimView claim)) (.literalEq property v)) := by
  have hfinite : Lookup.IsFinite ⟨claim, some ⟨property, allowed⟩⟩ :=
    Predicate.lowered_isFinite hvalid
  have hone : ∀ v ∈ allowed, v.isFinite = true := hfinite _ rfl
  obtain ⟨source, headings, hasRowId, hfind, hrow⟩ := hrow
  have hkept := ((binder_isLawful hlawful true env (n.claimView claim) _ hfind) row hrow).isKept
    property
  have hliteral : ∀ v ∈ allowed, v ≠ .null → (db.Satisfies env (n.claimView claim) row
      (n.fragment (quoteName (n.claimView claim)) (.literalEq property v)) ↔
        (NoNull (quoteName (n.claimView claim)).toList ∧ NoNull (quoteName property).toList ∧
          NoNull (quoteLiteral v).toList) ∧
        (Scope.mk (n.claimView claim) headings hasRowId).Has property ∧
        Cell.compareWith .eq _ _ v.cell = some true) := fun v hv hne => by
    rw [satisfies_literalEq (hone v hv), Naming.noNull_literalEq hne, isTrueFor_literal hfind,
      Fragment.literalTruth_of_ne hne]
  have hmembership : Lookup.IsFinite ⟨claim, none⟩ := nofun
  rw [passes_relatedIds hfinite, passes_relatedIds hmembership, isTrueFor_property hfind,
    hkept.among_literals, Naming.noNull_relatedIds, Naming.noNull_membership]
  constructor
  · rintro ⟨⟨hview, hproperty, hallowed⟩, hcaller, hhas, v, hv, hne, hequal⟩
    exact ⟨⟨hview, hcaller⟩, hallowed, v, hv, hne,
      (hliteral v hv hne).mpr ⟨⟨hview, hproperty, hallowed v hv⟩, hhas, hequal⟩⟩
  · rintro ⟨⟨hview, hcaller⟩, hallowed, v, hv, hne, hsatisfies⟩
    obtain ⟨⟨-, hproperty, -⟩, hhas, hequal⟩ := (hliteral v hv hne).mp hsatisfies
    exact ⟨⟨hview, hproperty, hallowed⟩, hcaller, hhas, v, hv, hne, hequal⟩

/-! ### Badges -/

/-- The badges of the members of groups. The only one has a size but no colour. -/
def badgeTable : Table where
  name := "m"
  columns := [{ name := "p", type := "TEXT" }, { name := "g", type := "TEXT" },
    { name := "colour", type := "TEXT" }, { name := "size", type := "TEXT" }]
  rows := [⟨1, [.text "alice", .text "red", .null, .text "7"]⟩]

/-- The groups of a member, with the colours and sizes of the badges. -/
def badgeClaim : Claim where
  name := "k"
  source := .table "m"
  principalColumn := "p"
  valueColumn := "g"
  attributes := ["colour", "size"]

def badgeOutput (column title : String) : Output :=
  .expr (.column (some "claim_source") column false) (some title)
    (columnOf Naming.sourceName column)

def badges : Database where
  tables := [badgeTable]
  views := [{
    name := "tg_claim_k"
    sql := Naming.claimViewSql ⟨"tg_"⟩ badgeClaim
    query := .select false [badgeOutput "p" "principal_id", badgeOutput "g" "related_id",
      badgeOutput "colour" "colour", badgeOutput "size" "size"]
      (.named "m" (some "claim_source")) (.int 1) }]

def badge : List Cell := [.text "alice", .text "red", .null, .text "7"]

lemma badgeTable_isLawful : badgeTable.IsLawful := by
  refine ⟨fun row hrow => ?_, List.pairwise_singleton _ _⟩
  obtain rfl := List.mem_singleton.mp hrow
  refine ⟨rfl, fun i c y hc hy => ⟨y, ?_⟩, by decide, by decide⟩
  match i with
  | 0 | 1 | 2 | 3 =>
    cases hc
    cases hy
    decide
  | _ + 4 => cases hc

lemma badges_find : ∃ source, (badges.binder true).find "tg_claim_k" =
      .ok (source, [("principal_id", .text), ("related_id", .text), ("colour", .text),
        ("size", .text)], false) ∧
    source.rows badges ⟨[], some "alice"⟩ = [badge] := by
  have heval : ((badges.binder true).find "tg_claim_k").toOption.map (fun found =>
      (found.1.rows badges ⟨[], some "alice"⟩, found.2)) = some
        ([badge], [("principal_id", .text), ("related_id", .text), ("colour", .text),
          ("size", .text)], false) := by
    set_option maxRecDepth 100000 in decide +kernel
  obtain ⟨⟨source, rest⟩, hfind, heq⟩ := Option.map_eq_some_iff.mp heval
  obtain ⟨hrows, rfl⟩ := Prod.mk.inj heq
  exact ⟨source, toOption_eq_some.mp hfind, hrows⟩

lemma badges_hasRow : badges.HasRow ⟨[], some "alice"⟩ "tg_claim_k" badge := by
  obtain ⟨source, hfind, hrows⟩ := badges_find
  exact ⟨source, _, _, hfind, hrows ▸ List.mem_cons_self⟩

lemma badges_membership : badges.Passes ⟨[], some "alice"⟩ "tg_claim_k" badge
    (Naming.relatedIds ⟨"tg_"⟩ ⟨"k", none⟩) := by
  obtain ⟨source, hfind, -⟩ := badges_find
  have hfinite : Lookup.IsFinite ⟨"k", none⟩ := nofun
  refine (passes_relatedIds (n := ⟨"tg_"⟩) hfinite).mpr ⟨?_, ?_⟩
  · exact Naming.noNull_membership.mpr (noNull_iff.mpr rfl)
  · exact (isTrueFor_membership (n := ⟨"tg_"⟩) hfind).mpr ⟨⟨_, rfl⟩, by decide⟩

/-- A badge of size 7 is found by a check of the size that allows for the number 7 or none. -/
theorem passes_property_badges : (∀ t ∈ badges.tables, t.IsLawful) ∧
    (Predicate.propertyCheck "team" "k" "size" [.null, .int 7]).validate = .ok () ∧
    badges.HasRow ⟨[], some "alice"⟩ "tg_claim_k" badge ∧
    badges.Passes ⟨[], some "alice"⟩ "tg_claim_k" badge
      (Naming.relatedIds ⟨"tg_"⟩ ⟨"k", some ⟨"size", [.null, .int 7]⟩⟩) := by
  have hlawful : ∀ t ∈ badges.tables, t.IsLawful :=
    List.forall_mem_singleton.mpr badgeTable_isLawful
  have hvalid : (Predicate.propertyCheck "team" "k" "size" [.null, .int 7]).validate = .ok () := rfl
  refine ⟨hlawful, hvalid, badges_hasRow, ?_⟩
  refine (passes_property_iff (n := ⟨"tg_"⟩) hlawful hvalid badges_hasRow).mpr
    ⟨badges_membership, ?_, .int 7, by simp, by simp, ?_⟩
  · simp only [noNull_iff, List.forall_mem_cons]
    decide +kernel
  · obtain ⟨source, hfind, -⟩ := badges_find
    refine (satisfies_literalEq rfl).mpr ⟨?_, (isTrueFor_literal hfind).mpr ⟨⟨_, rfl⟩, ?_⟩⟩
    · exact noNull_iff.mpr (by decide +kernel)
    · decide +kernel

/-- The badge without a colour is not found by a check that allows for no colour, although the
condition that there is no colour is true for it. -/
theorem null_property_not_found :
    (Predicate.propertyCheck "team" "k" "colour" [.null]).validate = .ok () ∧
    badges.HasRow ⟨[], some "alice"⟩ "tg_claim_k" badge ∧
    badges.Passes ⟨[], some "alice"⟩ "tg_claim_k" badge (Naming.relatedIds ⟨"tg_"⟩ ⟨"k", none⟩) ∧
    badges.Satisfies ⟨[], some "alice"⟩ "tg_claim_k" badge
      (Naming.fragment ⟨"tg_"⟩ (quoteName "tg_claim_k") (.literalEq "colour" .null)) ∧
    ¬ badges.Passes ⟨[], some "alice"⟩ "tg_claim_k" badge
      (Naming.relatedIds ⟨"tg_"⟩ ⟨"k", some ⟨"colour", [.null]⟩⟩) := by
  obtain ⟨source, hfind, -⟩ := badges_find
  refine ⟨rfl, badges_hasRow, badges_membership, ?_, fun hpasses => ?_⟩
  · exact (satisfies_literalEq rfl).mpr
      ⟨noNull_iff.mpr rfl, (isTrueFor_literal hfind).mpr ⟨⟨_, rfl⟩, by decide⟩⟩
  · have hfinite : Lookup.IsFinite ⟨"k", some ⟨"colour", [.null]⟩⟩ := by
      rintro filter ⟨⟩ v hv
      obtain rfl := List.mem_singleton.mp hv
      rfl
    obtain ⟨-, htrue⟩ := (passes_relatedIds (n := ⟨"tg_"⟩) hfinite).mp hpasses
    obtain ⟨-, -, hamong⟩ := (isTrueFor_property (n := ⟨"tg_"⟩) hfind).mp htrue
    exact absurd hamong (by decide)

end Database

end RowPolicy
