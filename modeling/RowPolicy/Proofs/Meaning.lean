import Mathlib.Tactic.Common
import RowPolicy.Database.Bound
import RowPolicy.Plan.Basic
import RowPolicy.Predicate.Basic

/-!
# Meaning of predicates and fragments

A fragment has a truth value of three-valued logic for every row, caller and contents of the
claims. A predicate is read directly: it holds or does not. Comparisons are those of the database,
so both depend on the affinities of the columns.
-/

namespace RowPolicy

/-! ### What a condition is judged against -/

structure RowValues where
  cell : String → Cell
  affinity : String → Affinity

structure ClaimRow where
  principal : Cell
  related : Cell
  property : String → Cell

/-- The rows of a claim, and the affinities of its related ids and its properties. -/
structure ClaimRows where
  rows : List ClaimRow
  related : Affinity
  property : String → Affinity

structure Surroundings where
  principal : Option String
  claims : String → ClaimRows

/-- The value of a literal. An integer beyond 64 bits is a real. -/
def Literal.cell : Literal → Cell
  | .null => .null
  | .bool b => .int (if b then 1 else 0)
  | .int i =>
    if Number.isInt64 i then .int i else .real (Binary64.ofDecimal (i < 0) i.natAbs 0)
  | .real x => .real x
  | .text s => .text s

/-- The id of a caller as a value; null for a caller without one. -/
def principalCell : Option String → Cell
  | some id => .text id
  | none => .null

/-! ### Fragments -/

namespace Surroundings

/-- Whether a value, as text, is the id of the caller. -/
def isCaller (w : Surroundings) (x : Cell) : Truth :=
  Cell.compareWith .eq .text x.castText (principalCell w.principal)

/-- Whether a lookup looks at a row of its claim. -/
def admits (w : Surroundings) (lookup : Lookup) (k : ClaimRow) : Truth :=
  match lookup.property with
  | none => w.isCaller k.principal
  | some filter =>
    (w.isCaller k.principal).and
      (Cell.among ((w.claims lookup.claim).property filter.property) (k.property filter.property)
        (filter.allowed.map Literal.cell))

def relatedIds (w : Surroundings) (lookup : Lookup) : List Cell :=
  ((w.claims lookup.claim).rows.filter fun k => w.admits lookup k == some true).map
    ClaimRow.related

end Surroundings

namespace Fragment

/-- Whether a column equals a literal; null is equal to itself here. -/
def literalTruth (row : RowValues) (column : String) : Literal → Truth
  | .null => some (row.cell column).isNull
  | v => Cell.compareWith .eq (row.affinity column) (row.cell column) v.cell

mutual

def truth (w : Surroundings) (row : RowValues) : Fragment → Truth
  | .always => some true
  | .never => some false
  | .literalEq column value => literalTruth row column value
  | .principalEq column => w.isCaller (row.cell column)
  | .inClaim column lookup =>
    Cell.among (.ofComparison (w.claims lookup.claim).related (row.affinity column))
      (row.cell column) (w.relatedIds lookup)
  | .all children => truthOfAll w row children
  | .any children => truthOfAny w row children

def truthOfAll (w : Surroundings) (row : RowValues) : List Fragment → Truth
  | [] => some true
  | f :: rest => (truth w row f).and (truthOfAll w row rest)

def truthOfAny (w : Surroundings) (row : RowValues) : List Fragment → Truth
  | [] => some false
  | f :: rest => (truth w row f).or (truthOfAny w row rest)

end

/-- The fragment is true, rather than false or unknown. -/
def IsTrue (w : Surroundings) (row : RowValues) (f : Fragment) : Prop := f.truth w row = some true

end Fragment

/-! ### Predicates -/

namespace Cell

/-- Two values are equal under an affinity; null equals nothing. -/
def Equals (a : Affinity) (x y : Cell) : Prop :=
  x ≠ .null ∧ y ≠ .null ∧ (meet a x y).1.same (meet a x y).2

/-- Two values are the same once both are converted by an affinity; null matches nothing. -/
def Matches (a : Affinity) (x y : Cell) : Prop :=
  x ≠ .null ∧ y ≠ .null ∧ (x.convert a).same (y.convert a)

end Cell

namespace Surroundings

/-- The value, as text, is the id of the caller. -/
def IsId (w : Surroundings) (x : Cell) : Prop :=
  ∃ id, w.principal = some id ∧ x.castText = .text id

/-- A value is among the related ids of the caller's rows of a claim, of which only those that
satisfy `keep` count. -/
def IsRelated (w : Surroundings) (a : Affinity) (x : Cell) (claim : String)
    (keep : ClaimRow → Prop) : Prop :=
  ∃ k ∈ (w.claims claim).rows, w.IsId k.principal ∧ keep k ∧
    Cell.Matches (.ofComparison (w.claims claim).related a) x k.related

end Surroundings

namespace Predicate

/-- A column equals a literal; null is equal to itself here. -/
def LiteralHolds (row : RowValues) (column : String) : Literal → Prop
  | .null => row.cell column = .null
  | v => Cell.Equals (row.affinity column) (row.cell column) v.cell

mutual

def Holds (w : Surroundings) (row : RowValues) : Predicate → Prop
  | .literalEq column value => LiteralHolds row column value
  | .identityEq column => w.IsId (row.cell column)
  | .membership column claim =>
    w.IsRelated (row.affinity column) (row.cell column) claim fun _ => True
  | .propertyCheck column claim property allowed =>
    w.IsRelated (row.affinity column) (row.cell column) claim fun k =>
      ∃ v ∈ allowed,
        Cell.Matches ((w.claims claim).property property) (k.property property) v.cell
  | .and children => HoldAll w row children
  | .or children => HoldsOne w row children

def HoldAll (w : Surroundings) (row : RowValues) : List Predicate → Prop
  | [] => True
  | p :: rest => Holds w row p ∧ HoldAll w row rest

def HoldsOne (w : Surroundings) (row : RowValues) : List Predicate → Prop
  | [] => False
  | p :: rest => Holds w row p ∨ HoldsOne w row rest

end

end Predicate

/-! ### Truth in three-valued logic -/

namespace Truth

@[simp] lemma and_eq_true {s t : Truth} :
    s.and t = some true ↔ s = some true ∧ t = some true := by
  match s, t with
  | none, none | none, some false | none, some true => simp [Truth.and]
  | some false, none | some false, some false | some false, some true => simp [Truth.and]
  | some true, none | some true, some false | some true, some true => simp [Truth.and]

@[simp] lemma or_eq_true {s t : Truth} : s.or t = some true ↔ s = some true ∨ t = some true := by
  match s, t with
  | none, none | none, some false | none, some true => simp [Truth.or]
  | some false, none | some false, some false | some false, some true => simp [Truth.or]
  | some true, none | some true, some false | some true, some true => simp [Truth.or]

end Truth

namespace Cell

@[simp] lemma isNull_iff {x : Cell} : x.isNull = true ↔ x = .null := by
  cases x <;> simp [isNull]

lemma compareWith_eq_true {a : Affinity} {x y : Cell} :
    compareWith .eq a x y = some true ↔ Equals a x y := by
  by_cases hnull : x = .null ∨ y = .null
  · have hn : (x.isNull || y.isNull) = true := by simpa using hnull
    simp only [compareWith, hn, if_true, Equals]
    grind
  · have hn : (x.isNull || y.isNull) = false := by
      rw [Bool.eq_false_iff]
      simpa using hnull
    rw [not_or] at hnull
    simp [compareWith, hn, Equals, holds, same, hnull.1, hnull.2]

lemma among_eq_true {a : Affinity} {x : Cell} {ys : List Cell} :
    among a x ys = some true ↔ ∃ y ∈ ys, Matches a x y := by
  unfold among Matches
  split_ifs with hempty hnull hfound hrest
  · simp [List.isEmpty_iff.mp hempty]
  · simp [isNull_iff.mp hnull]
  · obtain ⟨y, hy, hsame⟩ := List.any_eq_true.mp hfound
    simp only [Bool.and_eq_true, Bool.not_eq_true'] at hsame
    refine iff_of_true rfl ⟨y, hy, ?_, ?_, hsame.2⟩
    · rintro rfl
      simp [isNull] at hnull
    · rintro rfl
      simp [isNull] at hsame
  all_goals
    -- No element is found, whether or not one of them is null.
    refine iff_of_false (by simp) ?_
    rintro ⟨y, hy, -, hy0, hsame⟩
    refine hfound (List.any_eq_true.mpr ⟨y, hy, ?_⟩)
    simp only [hsame, Bool.and_true, Bool.not_eq_true']
    exact Bool.eq_false_iff.mpr fun h => hy0 (isNull_iff.mp h)

lemma castText_ne_int {x : Cell} {i : Int} : x.castText ≠ .int i := by
  cases x with
  | blob bytes => simp only [castText]; split <;> simp
  | _ => simp [castText, numberToText]

lemma castText_ne_real {x : Cell} {r : Binary64} : x.castText ≠ .real r := by
  cases x with
  | blob bytes => simp only [castText]; split <;> simp
  | _ => simp [castText, numberToText]

end Cell

/-- A value is the caller's id, as a comparison and as an equation. -/
lemma Surroundings.isCaller_eq_true {w : Surroundings} {x : Cell} :
    w.isCaller x = some true ↔ w.IsId x := by
  unfold isCaller IsId
  rw [Cell.compareWith_eq_true]
  cases w.principal with
  | none => simp [Cell.Equals, principalCell]
  | some id =>
    simp only [principalCell, Cell.Equals, Option.some.injEq, exists_eq_left']
    cases hx : x.castText with
    | int i => exact absurd hx Cell.castText_ne_int
    | real r => exact absurd hx Cell.castText_ne_real
    | null => simp
    | text s =>
      by_cases hs : s = id
      · simp [Cell.meet, Affinity.isNumeric, Cell.numberToText, Cell.same, Cell.order, hs,
          Cell.isText]
      · have hne : (s == id) = false := by simpa using hs
        by_cases hlt : s < id
          <;> simp [Cell.meet, Affinity.isNumeric, Cell.numberToText, Cell.same, Cell.order, hs,
            hlt, Cell.isText]
    | blob bytes =>
      simp [Cell.meet, Affinity.isNumeric, Cell.numberToText, Cell.same, Cell.order,
        Cell.isText, Cell.rank]

end RowPolicy
