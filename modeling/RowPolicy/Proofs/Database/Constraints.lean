import RowPolicy.Proofs.Meaning
import RowPolicy.Proofs.Number.Shortest
import RowPolicy.Proofs.Store.Tables

/-!
# Constraints of tables

Values are compared by their size, text or bytes, so being the same is an equivalence. The rows of a
lawful table have what a row is checked for when it is stored: values as their columns keep them, a
row id of their own, and no unique columns in common. Insertions, updates and deletions keep tables
lawful.
-/

namespace RowPolicy

/-! ### Values that are the same -/

def Binary64.value (x : Binary64) : WithBot (WithTop ℚ) :=
  if x.isFinite then ((x.signedRatio.1 / x.signedRatio.2 : ℚ) : WithTop ℚ)
  else if x.isNegative then ⊥ else ⊤

/-- What a value is compared by. -/
inductive Cell.Value where
  | null
  | number (size : WithBot (WithTop ℚ))
  | text (s : String)
  | blob (bytes : List UInt8)

/-- What a value is compared by: integers and other numbers by their size. -/
def Cell.value : Cell → Cell.Value
  | .null => .null
  | .int i => .number ((i : ℚ) : WithTop ℚ)
  | .real x => .number x.value
  | .text s => .text s
  | .blob bytes => .blob bytes

namespace Binary64

variable {x y : Binary64}

lemma signedRatio_pos (x : Binary64) : (0 : ℚ) < x.signedRatio.2 :=
  Nat.cast_pos.mpr (ratio_eq x).1

lemma value_of_isFinite (h : x.isFinite = true) :
    x.value = ((x.signedRatio.1 / x.signedRatio.2 : ℚ) : WithTop ℚ) := if_pos h

lemma value_of_not_isFinite (h : ¬ x.isFinite = true) :
    x.value = if x.isNegative then ⊥ else ⊤ := if_neg h

lemma compare_eq_eq : x.compare y = .eq ↔ x.value = y.value := by
  unfold compare
  by_cases hx : x.isFinite = true <;> by_cases hy : y.isFinite = true
  · have hx' := x.signedRatio_pos.ne'
    have hy' := y.signedRatio_pos.ne'
    simp only [hx, hy, value_of_isFinite, Bool.not_true, Bool.false_eq_true, if_false,
      Int.compare_eq_eq, WithBot.coe_inj, WithTop.coe_inj]
    rw [div_eq_div_iff hx' hy']
    exact_mod_cast Iff.rfl
  · cases hneg : y.isNegative <;> simp [hx, hy, hneg, value_of_isFinite, value_of_not_isFinite]
  · cases hneg : x.isNegative <;> simp [hx, hy, hneg, value_of_isFinite, value_of_not_isFinite]
  · cases hneg : x.isNegative <;> cases hneg' : y.isNegative <;>
      simp [hx, hy, hneg, hneg', value_of_not_isFinite]

lemma compareInt_eq_eq {i : Int} :
    x.compareInt i = .eq ↔ x.value = (((i : ℚ) : WithTop ℚ) : WithBot (WithTop ℚ)) := by
  unfold compareInt
  by_cases hx : x.isFinite = true
  · simp only [hx, value_of_isFinite, Bool.not_true, Bool.false_eq_true, if_false,
      Int.compare_eq_eq, WithBot.coe_inj, WithTop.coe_inj]
    rw [div_eq_iff x.signedRatio_pos.ne']
    exact_mod_cast Iff.rfl
  · cases hneg : x.isNegative <;> simp [hx, hneg, value_of_not_isFinite]

end Binary64

namespace Cell

variable {x y z : Cell} {a : Affinity}

lemma same_iff : x.same y = true ↔ x.value = y.value := by
  rw [same, beq_iff_eq]
  cases x with
  | int i =>
    cases y with
    | int j => simp [order, value]
    | real y => rw [order, Ordering.swap_eq_eq, Binary64.compareInt_eq_eq, value, value, eq_comm,
        Value.number.injEq]
    | null | text _ | blob _ => simp [order, value, rank, Nat.compare_eq_ite_lt]
  | real x =>
    cases y with
    | int j => rw [order, Binary64.compareInt_eq_eq, value, value, Value.number.injEq]
    | real y => rw [order, Binary64.compare_eq_eq, value, value, Value.number.injEq]
    | null | text _ | blob _ => simp [order, value, rank, Nat.compare_eq_ite_lt]
  | text s =>
    cases y with
    | text t => by_cases h : s = t <;> by_cases hlt : s < t <;> simp [order, value, h, hlt]
    | null | int _ | real _ | blob _ => simp [order, value, rank, Nat.compare_eq_ite_lt]
  | blob s =>
    cases y with
    | blob t =>
      have hmap : s.map UInt8.toNat = t.map UInt8.toNat ↔ s = t :=
        (List.map_injective_iff.mpr fun _ _ => UInt8.toNat_inj.mp).eq_iff
      by_cases h : s = t <;> by_cases hlt : s.map UInt8.toNat < t.map UInt8.toNat <;>
        simp [order, value, compareOfLessAndEq, h, hmap, hlt]
    | null | int _ | real _ | text _ => simp [order, value, rank, Nat.compare_eq_ite_lt]
  | null =>
    cases y <;> simp [order, value, rank, Nat.compare_eq_ite_lt]

lemma same_comm (x y : Cell) : x.same y = y.same x := by
  rw [Bool.eq_iff_iff, same_iff, same_iff, eq_comm]

lemma same_of_same (hx : x.same z = true) (hy : y.same z = true) : x.same y = true :=
  same_iff.mpr ((same_iff.mp hx).trans (same_iff.mp hy).symm)

/-! ### Values as columns keep them -/

/-- A column with an affinity can hold the value. -/
def IsKept (a : Affinity) (x : Cell) : Prop := ∃ y : Cell, y.store a = x

lemma isKept_int (i : Int) : IsKept .integer (.int i) := ⟨.int i, rfl⟩

lemma textToNumber_of_not_isText (h : x.isText = false) : x.textToNumber = x := by
  cases x with
  | text s => cases h
  | null | int _ | real _ | blob _ => rfl

lemma isText_integral (x : Cell) : x.integral.isText = x.isText := by
  cases x with
  | real x =>
    rw [integral]
    split
    · split <;> rfl
    · rfl
  | null | int _ | text _ | blob _ => rfl

lemma textToNumber_textToNumber (x : Cell) : x.textToNumber.textToNumber = x.textToNumber := by
  cases x with
  | text s =>
    rw [textToNumber]
    cases hs : numberOfText? s with
    | none => rw [Option.getD_none, textToNumber, hs, Option.getD_none]
    | some y =>
      refine textToNumber_of_not_isText ?_
      unfold numberOfText? at hs
      dsimp only at hs
      split at hs
      · cases hs
        rfl
      · obtain ⟨z, -, rfl⟩ := Option.map_eq_some_iff.mp hs
        rfl
  | null | int _ | real _ | blob _ => rfl

/-- Texts in numeric columns are no numbers. -/
lemma IsKept.textToNumber_eq (h : x.IsKept a) (ha : a.isNumeric = true) :
    x.textToNumber = x := by
  obtain ⟨y, rfl⟩ := h
  have hinner := textToNumber_textToNumber y
  -- Only a text stays as it is when other conversions follow.
  have hconvert : y.textToNumber.integral.textToNumber = y.textToNumber.integral := by
    cases hy : y.textToNumber.isText with
    | false => exact textToNumber_of_not_isText ((isText_integral _).trans hy)
    | true =>
      cases hz : y.textToNumber with
      | text s => rwa [hz] at hinner
      | null | int _ | real _ | blob _ =>
        rw [hz] at hy
        cases hy
  cases a with
  | none | blob | text => cases ha
  | numeric | integer => exact hconvert
  | real =>
    rw [store]
    cases hz : convert .real y with
    | int i => rfl
    | text s =>
      change y.textToNumber.integral = _ at hz
      rwa [hz] at hconvert
    | null | real _ | blob _ => rfl

/-- Numbers do not stay in text columns. -/
lemma IsKept.numberToText_eq (h : x.IsKept .text) : x.numberToText = x := by
  obtain ⟨y, rfl⟩ := h
  cases y <;> rfl

/-- The value that a comparison with a column compares the column with. -/
lemma IsKept.same_meet (h : x.IsKept a) (hequals : Equals a x z) :
    x.same (if a.isNumeric then z.textToNumber else if a = .text then z.numberToText else z) =
      true := by
  obtain ⟨hx, -, hsame⟩ := hequals
  unfold meet at hsame
  by_cases hnumeric : a.isNumeric = true
  · rw [if_pos hnumeric] at hsame ⊢
    rwa [← h.textToNumber_eq hnumeric]
  rw [if_neg hnumeric] at hsame ⊢
  by_cases htext : a = .text
  · subst htext
    have hkept := h.numberToText_eq
    rw [if_pos rfl]
    split at hsame
    · rwa [← hkept]
    · next hneither =>
      -- Neither side is a text, so both are bytes.
      cases x with
      | null => exact absurd rfl hx
      | int _ | real _ => cases hkept
      | text _ => simp [isText] at hneither
      | blob s =>
        cases z with
        | blob t => exact hsame
        | null | int _ | real _ | text _ =>
          rw [same_iff] at hsame
          cases hsame
  · rw [if_neg htext]
    simpa [htext] using hsame

/-- Values of a column that equal a third one are the same. -/
lemma IsKept.same_of_equals (hx : x.IsKept a) (hy : y.IsKept a) (hxz : Equals a x z)
    (hyz : Equals a y z) : x.same y = true :=
  same_of_same (hx.same_meet hxz) (hy.same_meet hyz)

end Cell

/-! ### Lawful tables -/

namespace Table

variable {t t' : Table} {row row' : Row} {rest : List Row} {cells : List Cell}
  {changes : List (Nat × Cell)}

/-- The columns of a table can hold the values. -/
def Keeps (t : Table) (cells : List Cell) : Prop :=
  ∀ (i : Nat) (c : Column) (x : Cell), t.columns[i]? = some c → cells[i]? = some x →
    x.IsKept c.affinity

/-- The row is one that a table can hold: its values are kept by their columns, and the column that
is the row id has it. -/
structure Fits (t : Table) (row : Row) : Prop where
  width : row.cells.length = t.columns.length
  kept : t.Keeps row.cells
  rowId : ∀ i, t.rowIdIndex? = some i → row.cells[i]? = some (.int row.id)
  filled : t.checkNotNull row.cells = .ok ()

/-- Two rows can be in a table together: their ids differ, and so do the values of columns that are
unique. -/
structure Apart (t : Table) (row row' : Row) : Prop where
  ids : row.id ≠ row'.id
  values : ∀ is ∈ t.uniqueSets, agree is row.cells row'.cells = false

/-- The rows of a table satisfy its constraints. -/
structure IsLawful (t : Table) : Prop where
  fits : ∀ row ∈ t.rows, t.Fits row
  apart : t.rows.Pairwise t.Apart

lemma agree_comm (is : List Nat) (xs ys : List Cell) : agree is xs ys = agree is ys xs := by
  unfold agree
  congr
  funext i
  cases xs[i]? <;> cases ys[i]? <;> try rfl
  rename_i x y
  dsimp only
  rw [Cell.same_comm, Bool.and_comm (!x.isNull)]

lemma Apart.symm (h : t.Apart row row') : t.Apart row' row :=
  ⟨h.ids.symm, fun is his => (agree_comm is _ _).trans (h.values is his)⟩

instance : Std.Symm t.Apart := ⟨fun _ _ => Apart.symm⟩

lemma Fits.withRows (h : t.Fits row) (rest : List Row) : Fits { t with rows := rest } row :=
  ⟨h.width, h.kept, h.rowId, h.filled⟩

lemma Apart.withRows (h : t.Apart row row') (rest : List Row) :
    Apart { t with rows := rest } row row' :=
  ⟨h.ids, h.values⟩

lemma IsLawful.isFull (h : t.IsLawful) : t.IsFull := fun row hrow => (h.fits row hrow).width

lemma IsLawful.nodup (h : t.IsLawful) : t.rows.Nodup :=
  h.apart.imp fun hapart heq => hapart.ids (congrArg Row.id heq)

lemma IsLawful.apart_of_ne (h : t.IsLawful) (hrow : row ∈ t.rows) (hrow' : row' ∈ t.rows)
    (hne : row ≠ row') : t.Apart row row' :=
  h.apart.forall hrow hrow' hne

lemma IsLawful.of_sublist (h : t.IsLawful) (hsub : rest.Sublist t.rows) :
    IsLawful { t with rows := rest } :=
  ⟨fun row hrow => (h.fits row (hsub.subset hrow)).withRows rest,
    (h.apart.sublist hsub).imp fun hapart => hapart.withRows rest⟩

/-- A row that fits and stands apart from the others can be put in its place. -/
lemma IsLawful.withRow (h : t.IsLawful) (hfits : t.Fits row)
    (hapart : ∀ other ∈ t.rows, t.Apart other row) : (t.withRow row).IsLawful := by
  refine ⟨fun other hother => ?_, ?_⟩
  · rcases mem_place.mp hother with rfl | hother
    · exact hfits.withRows _
    · exact (h.fits other hother).withRows _
  · have hrows : (row :: t.rows).Pairwise t.Apart :=
      List.pairwise_cons.mpr ⟨fun other hother => (hapart other hother).symm, h.apart⟩
    exact ((t.perm_place row).symm.pairwise hrows Apart.symm).imp fun hapart => hapart.withRows _

lemma toUpper_toLower (c : Char) : c.toLower.toUpper = c.toUpper := by
  have hascii : ∀ k < 128, (Char.ofNat k).toLower.toUpper = (Char.ofNat k).toUpper := by decide
  by_cases hc : c.toNat < 128
  · have hk := hascii c.toNat hc
    rwa [Char.ofNat_toNat] at hk
  · -- Beyond the letters nothing is in lower or upper case.
    have hlower : c.toLower = c := by
      refine dif_neg fun h => hc ?_
      have hhigh : c.toNat ≤ 90 := UInt32.le_iff_toNat_le.mp h.2
      omega
    rw [hlower]

lemma exists_rowIdColumn {i : Nat} (h : t.rowIdIndex? = some i) :
    ∃ c, t.columns[i]? = some c ∧ c.affinity = .integer := by
  unfold rowIdIndex? at h
  split at h
  next j _ =>
    split at h
    next hid =>
      obtain rfl : j = i := Option.some.inj h
      simp only [Bool.and_eq_true] at hid
      cases hc : t.columns[j]? with
      | none => simp [hc] at hid
      | some c =>
        refine ⟨c, rfl, ?_⟩
        have htype : Text.foldCase c.type = "integer" := by simpa [hc, isRowIdType] using hid.2
        have hupper : c.type.toList.map Char.toUpper = "INTEGER".toList := by
          have hfold := congrArg (fun s => s.toList.map Char.toUpper) htype
          simpa [Text.foldCase, Function.comp_def, toUpper_toLower] using hfold
        rw [Column.affinity, Affinity.ofType, hupper]
        rfl
    next => cases h
  next => cases h

/-! ### Values of new rows -/

lemma Keeps.set (h : t.Keeps cells) (i : Nat) {x : Cell}
    (hx : ∀ c, t.columns[i]? = some c → x.IsKept c.affinity) : t.Keeps (cells.set i x) := by
  intro j c y hc hy
  by_cases hij : i = j
  · subst hij
    have hlt : i < cells.length := by
      by_contra hlt
      rw [List.getElem?_eq_none (by simpa using hlt)] at hy
      cases hy
    rw [List.getElem?_set_self hlt] at hy
    cases hy
    exact hx c hc
  · rw [List.getElem?_set_ne hij] at hy
    exact h j c y hc hy

lemma Keeps.changedCells (h : t.Keeps cells) (changes : List (Nat × Cell)) :
    t.Keeps (t.changedCells cells changes) := by
  unfold Table.changedCells
  induction changes generalizing cells with
  | nil => exact h
  | cons change changes ih =>
    refine ih (h.set _ fun c hc => ⟨change.2, ?_⟩)
    rw [hc, Option.map_some, Option.getD_some]

/-- The values of a row with its id in the column for it. -/
def withId (t : Table) (cells : List Cell) (id : Int) : List Cell :=
  match t.rowIdIndex? with
  | some i => cells.set i (.int id)
  | none => cells

lemma Keeps.withId (h : t.Keeps cells) (id : Int) :
    t.Keeps (t.withId cells id) := by
  unfold Table.withId
  split
  next i hi =>
    refine h.set i fun c hc => ?_
    obtain ⟨c', hc', haffinity⟩ := exists_rowIdColumn hi
    cases hc.symm.trans hc'
    rw [haffinity]
    exact Cell.isKept_int id
  next => exact h

lemma getElem?_withId {id : Int} {i : Nat} (h : t.rowIdIndex? = some i)
    (hlength : cells.length = t.columns.length) : (t.withId cells id)[i]? = some (.int id) := by
  obtain ⟨c, hc, -⟩ := exists_rowIdColumn h
  rw [Table.withId, h]
  refine List.getElem?_set_self ?_
  rw [hlength]
  exact (List.getElem?_eq_some_iff.mp hc).1

lemma length_withId (t : Table) (cells : List Cell) (id : Int) :
    (t.withId cells id).length = cells.length := by
  unfold Table.withId
  split <;> simp

/-- A row that was checked fits, if it has its values as they are stored and its id. -/
lemma fits_of_checkRow {id : Int} (hkeeps : t.Keeps cells)
    (hlength : cells.length = t.columns.length)
    (hcheck : t.checkRow rest ⟨id, t.withId cells id⟩ = .ok ()) :
    t.Fits ⟨id, t.withId cells id⟩ where
  width := (length_withId t cells id).trans hlength
  kept := hkeeps.withId id
  rowId := fun _ hi => getElem?_withId hi hlength
  filled := (checkRow_iff.mp hcheck).1

/-! ### Insertions -/

lemma le_foldl_max (ids : List Int) (start : Int) :
    start ≤ ids.foldl max start ∧ ∀ i ∈ ids, i ≤ ids.foldl max start := by
  induction ids generalizing start with
  | nil => simp
  | cons id ids ih =>
    obtain ⟨hstart, hids⟩ := ih (max start id)
    rw [List.foldl_cons, List.forall_mem_cons]
    exact ⟨(le_max_left _ _).trans hstart, (le_max_right _ _).trans hstart, hids⟩

lemma lt_nextRowId {r : Row} (hr : r ∈ t.rows) : r.id < t.nextRowId := by
  have hid : r.id ∈ t.rows.map Row.id := List.mem_map_of_mem hr
  unfold nextRowId
  split
  next hnil =>
    rw [hnil] at hid
    cases hid
  next id ids hids =>
    rw [hids, List.mem_cons] at hid
    obtain ⟨hfirst, hrest⟩ := le_foldl_max ids id
    obtain hid | hid := hid
    · omega
    · have hle := hrest r.id hid
      omega

lemma rowIdIndex?_of_withoutRowId (h : t.withoutRowId = true) : t.rowIdIndex? = none := by
  unfold rowIdIndex?
  split
  · simp [h]
  · rfl

/-! ### Updates -/

def changedId (t : Table) (old : Row) (changes : List (Nat × Cell)) (id : Option Cell) :
    Except StorageError Int :=
  match t.rowIdIndex?.elim id fun i => (changes.lookup i).orElse fun _ => id with
  | none => .ok old.id
  | some v => rowIdOf v

def changedRow (t : Table) (old : Row) (changes : List (Nat × Cell)) (id : Int) : Row :=
  ⟨id, t.withId (t.changedCells old.cells changes) id⟩

lemma update_eq (t : Table) (old : Row) (changes : List (Nat × Cell)) (id : Option Cell) :
    t.update old changes id = (t.changedId old changes id >>= fun rowId =>
      t.checkRow (t.rows.erase old) (t.changedRow old changes rowId) >>= fun _ =>
        .ok (Table.withRow { t with rows := t.rows.erase old }
          (t.changedRow old changes rowId))) := by
  unfold update changedId changedRow withId
  cases hindex : t.rowIdIndex? with
  | some i =>
    cases hwanted : (changes.lookup i).orElse fun _ => id <;>
      simp only [Option.elim_some, hwanted] <;> rfl
  | none => cases id <;> rfl

lemma update_iff {old : Row} {id : Option Cell} :
    t.update old changes id = .ok t' ↔ ∃ rowId, t.changedId old changes id = .ok rowId ∧
      t.checkRow (t.rows.erase old) (t.changedRow old changes rowId) = .ok () ∧
      t' = Table.withRow { t with rows := t.rows.erase old } (t.changedRow old changes rowId) := by
  rw [update_eq, bind_eq_ok]
  refine exists_congr fun rowId => and_congr_right fun _ => ?_
  rw [bind_eq_ok, exists_unit, Except.ok.injEq, eq_comm (a := t')]

lemma changedId_of_withoutRowId {old : Row} (h : t.withoutRowId = true) :
    t.changedId old changes none = .ok old.id := by
  rw [changedId, rowIdIndex?_of_withoutRowId h]
  rfl

lemma IsLawful.update {old : Row} {id : Option Cell} (h : t.IsLawful) (hold : old ∈ t.rows)
    (hid : t.withoutRowId = true → id = none) (hupdate : t.update old changes id = .ok t') :
    t'.IsLawful := by
  obtain ⟨rowId, hrowId, hcheck, rfl⟩ := update_iff.mp hupdate
  have hfits : t.Fits (t.changedRow old changes rowId) :=
    fits_of_checkRow ((h.fits old hold).kept.changedCells changes)
      ((length_changedCells t _ _).trans (h.fits old hold).width) hcheck
  refine (h.of_sublist t.rows.erase_sublist).withRow (hfits.withRows _) fun other hother => ?_
  refine Apart.withRows ⟨fun heq => ?_, (checkRow_iff.mp hcheck).2.2 other hother⟩ _
  cases hwithout : t.withoutRowId with
  | false => exact (checkRow_iff.mp hcheck).2.1 hwithout other hother heq
  | true =>
    obtain ⟨hne, hmem⟩ := h.nodup.mem_erase_iff.mp hother
    rw [hid hwithout, changedId_of_withoutRowId hwithout] at hrowId
    cases hrowId
    exact (h.apart_of_ne hmem hold hne).ids heq

end Table

end RowPolicy
