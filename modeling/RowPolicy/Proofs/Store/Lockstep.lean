import Mathlib.Data.List.Forall2
import RowPolicy.Proofs.Store.Contents

/-!
# Stores that differ in their stamps

Two stores that hold the same records, but for the times in them, stay so when the same is done to
both: each operation succeeds on both or fails on both with the same error, since no constraint and
no lookup is a matter of the text of a record.
-/

namespace RowPolicy

/-! ### Outcomes in step -/

/-- Two computations succeed with related results or fail with the same error. -/
inductive InStep {ε α β : Type} (R : α → β → Prop) : Except ε α → Except ε β → Prop
  | ok {a : α} {b : β} (h : R a b) : InStep R (.ok a) (.ok b)
  | error (e : ε) : InStep R (.error e) (.error e)

namespace InStep

variable {ε ε' α α' β β' : Type} {R : α → β → Prop} {S : α' → β' → Prop} {x : Except ε α}
  {y : Except ε β}

lemma refl {R : α → α → Prop} (h : ∀ a, R a a) (x : Except ε α) : InStep R x x := by
  cases x with
  | error e => exact .error e
  | ok a => exact .ok (h a)

lemma mono {R' : α → β → Prop} (h : InStep R x y) (hR : ∀ a b, R a b → R' a b) :
    InStep R' x y := by
  cases h with
  | ok h => exact .ok (hR _ _ h)
  | error e => exact .error e

lemma bind {f : α → Except ε α'} {g : β → Except ε β'} (h : InStep R x y)
    (hfg : ∀ a b, R a b → InStep S (f a) (g b)) : InStep S (x >>= f) (y >>= g) := by
  cases h with
  | ok h => exact hfg _ _ h
  | error e => exact .error e

lemma mapError (h : InStep R x y) (f : ε → ε') : InStep R (x.mapError f) (y.mapError f) := by
  cases h with
  | ok h => exact .ok h
  | error e => exact .error (f e)

lemma map_left {f : α → α'} {R : α' → β → Prop} (h : InStep (fun a b => R (f a) b) x y) :
    InStep R (x.map f) y := by
  cases h with
  | ok h => exact .ok h
  | error e => exact .error e

lemma foldlM {f : α' → α → Except ε α'} {g : β' → β → Except ε β'} {as : List α} {bs : List β}
    (has : List.Forall₂ R as bs)
    (hstep : ∀ x y a b, S x y → R a b → InStep S (f x a) (g y b)) {x : α'} {y : β'} (hxy : S x y) :
    InStep S (as.foldlM f x) (bs.foldlM g y) := by
  induction has generalizing x y with
  | nil => exact .ok hxy
  | cons hab _ ih =>
    rw [List.foldlM_cons, List.foldlM_cons]
    exact (hstep x y _ _ hxy hab).bind fun x' y' hxy' => ih hxy'

lemma mapM {f : α → Except ε α'} {g : β → Except ε β'} {as : List α} {bs : List β}
    (has : List.Forall₂ R as bs) (hfg : ∀ a b, R a b → InStep S (f a) (g b)) :
    InStep (List.Forall₂ S) (as.mapM f) (bs.mapM g) := by
  induction has with
  | nil => exact .ok .nil
  | cons hab _ ih =>
    rw [List.mapM_cons, List.mapM_cons]
    exact (hfg _ _ hab).bind fun c d hcd => ih.bind fun cs ds hcds => .ok (.cons hcd hcds)

end InStep

/-! ### Lists in step -/

section

variable {α β κ : Type} {R : α → β → Prop} {as : List α} {bs : List β} {p : α → Bool} {q : β → Bool}

lemma forall₂_filter (h : List.Forall₂ R as bs) (hpq : ∀ a b, R a b → p a = q b) :
    List.Forall₂ R (as.filter p) (bs.filter q) :=
  List.rel_filter (fun a b hab => iff_of_eq (congrArg (· = true) (hpq a b hab))) h

lemma forall₂_any (h : List.Forall₂ R as bs) (hpq : ∀ a b, R a b → p a = q b) :
    as.any p = bs.any q := by
  induction h with
  | nil => rfl
  | cons hab _ ih => rw [List.any_cons, List.any_cons, hpq _ _ hab, ih]

lemma forall₂_insertByKey {lt : κ → κ → Bool} {key : α → κ} {key' : β → κ} {a : α} {b : β}
    (h : List.Forall₂ R as bs) (hab : R a b) (hkey : ∀ a b, R a b → key a = key' b) :
    List.Forall₂ R (Text.insertByKey lt key a as) (Text.insertByKey lt key' b bs) := by
  induction h with
  | nil => exact .cons hab .nil
  | @cons c d cs ds hcd hrest ih =>
    rw [Text.insertByKey, Text.insertByKey, hkey a b hab, hkey c d hcd]
    split
    · exact .cons hab (.cons hcd hrest)
    · exact .cons hcd ih

lemma forall₂_sortByKey {lt : κ → κ → Bool} {key : α → κ} {key' : β → κ}
    (h : List.Forall₂ R as bs) (hkey : ∀ a b, R a b → key a = key' b) :
    List.Forall₂ R (Text.sortByKey lt key as) (Text.sortByKey lt key' bs) := by
  unfold Text.sortByKey
  suffices hloop : ∀ {cs : List α} {ds : List β}, List.Forall₂ R cs ds →
      List.Forall₂ R (as.foldl (fun sorted a => Text.insertByKey lt key a sorted) cs)
        (bs.foldl (fun sorted b => Text.insertByKey lt key' b sorted) ds) from hloop .nil
  induction h with
  | nil => exact id
  | cons hab _ ih => exact fun hcd => ih (forall₂_insertByKey hcd hab hkey)

/-- Elements that are found in both lists are related, and so are the lists without them. -/
lemma forall₂_find? [DecidableEq α] [DecidableEq β] (h : List.Forall₂ R as bs)
    (hpq : ∀ a b, R a b → p a = q b) :
    (as.find? p = none ∧ bs.find? q = none) ∨
      ∃ a b, as.find? p = some a ∧ bs.find? q = some b ∧ R a b ∧
        List.Forall₂ R (as.erase a) (bs.erase b) := by
  induction h with
  | nil => exact .inl ⟨rfl, rfl⟩
  | @cons a b as bs hab hrest ih =>
    rw [List.find?_cons, List.find?_cons, hpq a b hab]
    cases hq : q b with
    | true => exact .inr ⟨a, b, rfl, rfl, hab, by simpa using hrest⟩
    | false =>
      obtain hnone | ⟨a', b', ha', hb', hab', herase⟩ := ih
      · exact .inl hnone
      · -- What is found has the property, and the first element has not.
        have hne : ¬ (a == a') = true := fun heq => by
          have hp := List.find?_some ha'
          rw [← eq_of_beq heq, hpq a b hab, hq] at hp
          cases hp
        have hne' : ¬ (b == b') = true := fun heq => by
          have hq' := List.find?_some hb'
          rw [← eq_of_beq heq, hq] at hq'
          cases hq'
        refine .inr ⟨a', b', ha', hb', hab', ?_⟩
        rw [List.erase_cons_tail hne, List.erase_cons_tail hne']
        exact .cons hab herase

end

namespace Store

/-! ### Tables in step -/

section

variable {α : Type} {T : RecordTable α} {S : α → α → Prop} {t t' : Table} {a b : α}

/-- Rows with the same id that hold related records. -/
def RowAlike (T : RecordTable α) (S : α → α → Prop) (r r' : Row) : Prop :=
  r.id = r'.id ∧ ∃ a b, S a b ∧ r.cells = T.cells a ∧ r'.cells = T.cells b

/-- Tables of records that are related row by row. -/
structure TableAlike (T : RecordTable α) (S : α → α → Prop) (t t' : Table) : Prop where
  schema : t.schema = T.table
  schema' : t'.schema = T.table
  rows : List.Forall₂ (RowAlike T S) t.rows t'.rows

/-- Related records are the same to the constraints of their table. -/
structure Steady (T : RecordTable α) (S : α → α → Prop) : Prop where
  noRowId : T.table.rowIdIndex? = none
  notNull : ∀ a b, S a b → T.table.checkNotNull (T.cells a) = T.table.checkNotNull (T.cells b)
  agree : ∀ a b c d, S a b → S c d → ∀ set ∈ T.table.uniqueSets,
    Table.agree set (T.cells a) (T.cells c) = Table.agree set (T.cells b) (T.cells d)

lemma checkRow_of_schema {u : Table} (h : t.schema = u) (others : List Row) (row : Row) :
    t.checkRow others row = u.checkRow others row := by
  subst h
  rfl

lemma Steady.checkRow (hT : Steady T S) (hab : S a b) {others others' : List Row}
    (hothers : List.Forall₂ (RowAlike T S) others others') (id : Int) :
    T.table.checkRow others ⟨id, T.cells a⟩ = T.table.checkRow others' ⟨id, T.cells b⟩ := by
  have hids : others.any (fun r => r.id == id) = others'.any fun r => r.id == id :=
    forall₂_any hothers fun r r' hr => by rw [hr.1]
  have hsets : T.table.uniqueSets.find? (fun set =>
      others.any fun r => Table.agree set r.cells (T.cells a)) = T.table.uniqueSets.find? fun set =>
      others'.any fun r => Table.agree set r.cells (T.cells b) := by
    rw [← List.head?_filter, ← List.head?_filter]
    refine congrArg List.head? (List.filter_congr fun set hset => forall₂_any hothers ?_)
    rintro r r' ⟨-, c, d, hcd, hr, hr'⟩
    rw [hr, hr']
    exact hT.agree c d a b hcd hab set hset
  unfold Table.checkRow Table.checkUnique
  dsimp only
  rw [hT.notNull a b hab, hids, hsets]

lemma TableAlike.withRows (h : TableAlike T S t t') {rows rows' : List Row}
    (hrows : List.Forall₂ (RowAlike T S) rows rows') :
    TableAlike T S { t with rows := rows } { t' with rows := rows' } :=
  ⟨h.schema, h.schema', hrows⟩

lemma TableAlike.place (h : TableAlike T S t t') {row row' : Row} (hrow : RowAlike T S row row') :
    List.Forall₂ (RowAlike T S) (t.place row) (t'.place row') := by
  have hid : t'.withoutRowId = t.withoutRowId :=
    (congrArg Table.withoutRowId (h.schema'.trans h.schema.symm) : t'.schema.withoutRowId = _)
  unfold Table.place
  rw [hid]
  split
  · exact List.rel_append h.rows (.cons hrow .nil)
  · exact forall₂_insertByKey h.rows hrow fun _ _ hr => hr.1

lemma TableAlike.nextRowId (h : TableAlike T S t t') : t.nextRowId = t'.nextRowId := by
  have hids : t.rows.map Row.id = t'.rows.map Row.id := by
    rw [← List.forall₂_eq_eq_eq, List.forall₂_map_left_iff, List.forall₂_map_right_iff]
    exact h.rows.imp fun _ _ hr => hr.1
  unfold Table.nextRowId
  rw [hids]

lemma TableAlike.insert (hT : Steady T S) (h : TableAlike T S t t') (hab : S a b)
    {given given' : List (Nat × Cell)} (hnew : T.table.newCells given = T.cells a)
    (hnew' : T.table.newCells given' = T.cells b) :
    InStep (fun x y => TableAlike T S x.1 y.1) (t.insert given none) (t'.insert given' none) := by
  have hinsert : ∀ {t : Table} {given : List (Nat × Cell)}, t.schema = T.table →
      t.insert given none =
        (T.table.checkRow t.rows ⟨t.nextRowId, T.table.newCells given⟩ >>= fun _ =>
          pure ({ t with rows := t.place ⟨t.nextRowId, T.table.newCells given⟩ },
            t.nextRowId)) := by
    intro t given hschema
    have hid : t.rowIdIndex? = none := by
      rw [← hT.noRowId, ← hschema]
      rfl
    have hcells : t.newCells given = T.table.newCells given := by
      rw [← hschema]
      rfl
    unfold Table.insert
    simp only [hid, hcells, Option.getD_none, Cell.isNull, Bool.or_true, if_true, pure_bind,
      checkRow_of_schema hschema]
  rw [hinsert h.schema, hinsert h.schema', hnew, hnew', h.nextRowId]
  rw [hT.checkRow hab h.rows]
  refine (InStep.refl (fun _ => rfl) _).bind (R := Eq) fun _ _ _ => .ok ?_
  exact ⟨h.schema, h.schema', h.place ⟨rfl, a, b, hab, rfl, rfl⟩⟩

lemma TableAlike.update (hT : Steady T S) (h : TableAlike T S t t') (hab : S a b)
    {old old' : Row} (hid : old.id = old'.id)
    (hrest : List.Forall₂ (RowAlike T S) (t.rows.erase old) (t'.rows.erase old'))
    {changes changes' : List (Nat × Cell)}
    (hchanged : T.table.changedCells old.cells changes = T.cells a)
    (hchanged' : T.table.changedCells old'.cells changes' = T.cells b) :
    InStep (TableAlike T S) (t.update old changes none) (t'.update old' changes' none) := by
  have hupdate : ∀ {t : Table} {old : Row} {changes : List (Nat × Cell)} {a : α},
      t.schema = T.table → T.table.changedCells old.cells changes = T.cells a →
      t.update old changes none =
        (T.table.checkRow (t.rows.erase old) ⟨old.id, T.cells a⟩ >>= fun _ =>
          pure { t with
            rows := Table.place { t with rows := t.rows.erase old } ⟨old.id, T.cells a⟩ }) := by
    intro t old changes a hschema hchanged
    have hid : t.rowIdIndex? = none := by
      rw [← hT.noRowId, ← hschema]
      rfl
    have hcells : t.changedCells old.cells changes = T.cells a := by
      rw [← hchanged, ← hschema]
      rfl
    unfold Table.update
    simp only [hid, hcells, pure_bind, checkRow_of_schema hschema]
  rw [hupdate h.schema hchanged, hupdate h.schema' hchanged', hid, hT.checkRow hab hrest]
  refine (InStep.refl (fun _ => rfl) _).bind (R := Eq) fun _ _ _ => .ok ?_
  exact ⟨h.schema, h.schema', (h.withRows hrest).place ⟨rfl, a, b, hab, rfl, rfl⟩⟩

/-! ### Writing in step -/

variable {db db' : Database} {κ : Type} {keyOf : α → κ}

/-- Both databases have the table, with related records. -/
def Pair (T : RecordTable α) (S : α → α → Prop) (db db' : Database) : Prop :=
  ∃ t t', db.table? T.table.name = some t ∧ db'.table? T.table.name = some t' ∧
    TableAlike T S t t'

/-- A table of related records is stored in both databases. -/
def Stores (T : RecordTable α) (S : α → α → Prop) (db db' d d' : Database) : Prop :=
  ∃ t t', TableAlike T S t t' ∧ d = db.setTable t ∧ d' = db'.setTable t'

lemma Pair.table (h : Pair T S db db') (columns : List String) :
    InStep (TableAlike T S) (Store.table db T.table columns) (Store.table db' T.table columns) := by
  obtain ⟨t, t', ht, ht', halike⟩ := h
  have hindex : ∀ {t : Table}, t.schema = T.table → ∀ c, t.columnIndex? c =
      T.table.columnIndex? c := fun hschema c => by
    rw [← hschema]
    rfl
  unfold Store.table
  simp only [ht, ht', hindex halike.schema, hindex halike.schema']
  split
  · exact .ok halike
  · exact .error _

lemma placed_of_schema {u : Table} (h : t.schema = u) (values : List (String × Cell)) :
    placed t values = placed u values := by
  subst h
  rfl

lemma Pair.upsert (hT : Steady T S) (h : Pair T S db db')
    (hkey : ∀ a b, S a b → keyOf a = keyOf b) (hab : S a b)
    {key values values' : List (String × Cell)} (hkeys : Keys T keyOf a key values)
    (hkeys' : Keys T keyOf b key values')
    (hcolumns : values.map Prod.fst = values'.map Prod.fst) :
    InStep (Stores T S db db') (upsert db T.table key values)
      (upsert db' T.table key values') := by
  unfold Store.upsert
  rw [List.map_append, List.map_append, hcolumns]
  refine (h.table _).bind fun t t' halike => ?_
  have hunique : ∀ {t : Table}, t.schema = T.table →
      areUnique t (key.map Prod.fst) = areUnique T.table (key.map Prod.fst) := fun hschema => by
    rw [← hschema]
    rfl
  rw [hunique halike.schema, hunique halike.schema']
  split
  · exact .error _
  dsimp only
  -- Rows in step have the same key, so both tables have a row with it or neither.
  have hhas : ∀ r r', RowAlike T S r r' →
      hasKey T.table key r.cells = hasKey T.table key r'.cells := by
    rintro r r' ⟨-, c, d, hcd, hr, hr'⟩
    rw [hr, hr', Bool.eq_iff_iff, hkeys.hasKey, hkeys.hasKey, hkey c d hcd]
  simp only [placed_of_schema halike.schema, placed_of_schema halike.schema']
  obtain ⟨hnone, hnone'⟩ | ⟨r, r', hr, hr', hrow, hrest⟩ := forall₂_find? halike.rows hhas
  · unfold hasKey at hnone hnone'
    rw [hnone, hnone']
    refine (halike.insert hT hab hkeys.new hkeys'.new).bind fun x y hxy => .ok ?_
    exact ⟨x.1, y.1, hxy, rfl, rfl⟩
  · have hhas' := List.find?_some hr
    unfold hasKey at hr hr'
    rw [hr, hr']
    obtain ⟨hid, c, d, hcd, hc, hd⟩ := hrow
    have hc' : keyOf c = keyOf a := (hkeys.hasKey c).mp (hc ▸ hhas')
    have hd' : keyOf d = keyOf b := by rw [← hkey c d hcd, hc', hkey a b hab]
    refine (halike.update hT hab hid hrest (hc ▸ hkeys.changed c hc')
      (hd ▸ hkeys'.changed d hd')).bind fun x y hxy => .ok ?_
    exact ⟨x, y, hxy, rfl, rfl⟩

lemma Pair.replace (hT : Steady T S) (h : Pair T S db db') (hab : S a b)
    {values values' : List (String × Cell)}
    (hnew : T.table.newCells (placed T.table values) = T.cells a)
    (hnew' : T.table.newCells (placed T.table values') = T.cells b)
    (hcolumns : values.map Prod.fst = values'.map Prod.fst) :
    InStep (Stores T S db db') (replace db T.table values) (replace db' T.table values') := by
  unfold Store.replace
  rw [hcolumns]
  refine (h.table _).bind fun t t' halike => ?_
  dsimp only
  have hsets : ∀ {t : Table}, t.schema = T.table → t.uniqueSets = T.table.uniqueSets ∧
      ∀ given, t.newCells given = T.table.newCells given := fun hschema => by
    rw [← hschema]
    exact ⟨rfl, fun _ => rfl⟩
  simp only [placed_of_schema halike.schema, placed_of_schema halike.schema',
    (hsets halike.schema).1, (hsets halike.schema').1, (hsets halike.schema).2,
    (hsets halike.schema').2, hnew, hnew']
  have hkept := forall₂_filter (p := fun r =>
      !T.table.uniqueSets.any fun set => Table.agree set r.cells (T.cells a))
    (q := fun r => !T.table.uniqueSets.any fun set => Table.agree set r.cells (T.cells b))
    halike.rows (by
      rintro r r' ⟨-, c, d, hcd, hr, hr'⟩
      rw [hr, hr', Bool.not_inj_iff, Bool.eq_iff_iff, List.any_eq_true, List.any_eq_true]
      refine exists_congr fun set => and_congr_right fun hset => ?_
      rw [hT.agree c d a b hcd hab set hset])
  refine ((halike.withRows hkept).insert hT hab hnew hnew').bind fun x y hxy => .ok ?_
  exact ⟨x.1, y.1, hxy, rfl, rfl⟩

lemma Pair.deleteRows (h : Pair T S db db') {wanted : List (String × String)}
    (hwanted : ∀ r r', RowAlike T S r r' →
      hasTexts T.table wanted r = hasTexts T.table wanted r') :
    InStep (fun x y => Stores T S db db' x.1 y.1 ∧ x.2 = y.2) (deleteRows db T.table wanted)
      (deleteRows db' T.table wanted) := by
  unfold Store.deleteRows
  refine ((h.table _).mapError _).bind fun t t' halike => .ok ?_
  rw [hasTexts_of_schema halike.schema, hasTexts_of_schema halike.schema']
  have hkept := forall₂_filter (p := fun r => !hasTexts T.table wanted r)
    (q := fun r => !hasTexts T.table wanted r) halike.rows fun r r' hr => by rw [hwanted r r' hr]
  refine ⟨⟨_, _, halike.withRows hkept, rfl, rfl⟩, ?_⟩
  dsimp only
  rw [hkept.length_eq, halike.rows.length_eq]

/-! ### Reading in step -/

variable {β : Type} {Q : β → β → Prop} {decode : Json.Draft → Json.Decoded β} {text : α → String}

lemma recordText_alike
    (htext : ∀ row a, row.cells = T.cells a → cell T.table row "record" = .text (text a))
    (hschema : t.schema = T.table) {r : Row} (hr : r.cells = T.cells a) :
    recordText t r = .ok (text a) := by
  rw [recordText, cell_of_schema hschema, htext r a hr]

lemma TableAlike.readFirst (h : TableAlike T S t t')
    (htext : ∀ row a, row.cells = T.cells a → cell T.table row "record" = .text (text a))
    (hread : ∀ a b, S a b →
      InStep Q (readRecord decode (text a)) (readRecord decode (text b)))
    {rows rows' : List Row} (hrows : List.Forall₂ (RowAlike T S) rows rows') :
    InStep (Option.Rel Q) (Store.readFirst decode t rows) (Store.readFirst decode t' rows') := by
  cases hrows with
  | nil => exact .ok .none
  | cons hrow _ =>
    obtain ⟨-, a, b, hab, hr, hr'⟩ := hrow
    rw [Store.readFirst, Store.readFirst, recordText_alike htext h.schema hr,
      recordText_alike htext h.schema' hr', ok_bind, ok_bind]
    exact (hread a b hab).bind fun c d hcd => .ok (.some hcd)

lemma TableAlike.readRecords (h : TableAlike T S t t')
    (htext : ∀ row a, row.cells = T.cells a → cell T.table row "record" = .text (text a))
    (hread : ∀ a b, S a b →
      InStep Q (readRecord decode (text a)) (readRecord decode (text b)))
    {rows rows' : List Row} (hrows : List.Forall₂ (RowAlike T S) rows rows') :
    InStep (List.Forall₂ Q) (Store.readRecords decode t rows)
      (Store.readRecords decode t' rows') := by
  unfold Store.readRecords
  have htexts : InStep (List.Forall₂ fun s s' => ∃ a b, S a b ∧ s = text a ∧ s' = text b)
      (rows.mapM (recordText t)) (rows'.mapM (recordText t')) := by
    refine InStep.mapM hrows ?_
    rintro r r' ⟨-, a, b, hab, hr, hr'⟩
    rw [recordText_alike htext h.schema hr, recordText_alike htext h.schema' hr']
    exact .ok ⟨a, b, hab, rfl, rfl⟩
  refine htexts.bind fun ss ss' hss => InStep.mapM hss ?_
  rintro s s' ⟨a, b, hab, rfl, rfl⟩
  exact hread a b hab

end

end Store

end RowPolicy
