import RowPolicy.Proofs.Record.Artifacts
import RowPolicy.Proofs.Store.Tables

/-!
# Contents of the store

The store holds rules, claims and artifacts, each under a key of its own. Claims and artifacts are
read back as they were stored. A rule is read back if its predicate can be, and its literals are
then the ones that were read.
-/

namespace RowPolicy

lemma Uuid.text_injective {u v : Uuid} (h : u.text = v.text) : u = v := by
  have hparse := u.parse_text
  rw [h, v.parse_text] at hparse
  exact (Except.ok.inj hparse).symm

lemma Operation.text_injective {a b : Operation} (h : a.text = b.text) : a = b := by
  cases a <;> cases b <;> first | rfl | exact absurd h (by decide)

lemma ArtifactKind.text_injective {a b : ArtifactKind} (h : a.text = b.text) : a = b := by
  cases a <;> cases b <;> first | rfl | exact absurd h (by decide)

/-- A stored rule as it is read back. -/
def RuleRecord.reread (r : RuleRecord) : RuleRecord := { r with body := r.body.reread }

/-- The stamps of a definition can be read back. -/
def Stamped.IsRegular {α : Type} (s : Stamped α) : Prop :=
  s.createdAt.IsRegular ∧ s.updatedAt.IsRegular

namespace Store

/-! ### The tables -/

def ruleRows : RecordTable RuleRecord where
  table := ruleTable
  cells r := [.text r.body.table, .text r.body.operation.text, .text r.id.text,
    .text r.toJson.compact]

def claimRows : RecordTable ClaimRecord where
  table := claimTable
  cells c := [.text c.body.name, .text c.id.text, .text c.toJson.compact]

def artifactRows : RecordTable ArtifactRecord where
  table := artifactTable
  cells a := [.text a.identifier, .text a.owner.text, .text a.kind.text, .text a.target,
    operationCell a.operation, .text a.fingerprint, .text a.toJson.compact]

lemma operationCell_same (a b : Option Operation) :
    (operationCell a).same (operationCell b) = decide (a = b) := by
  cases a with
  | none => cases b <;> rfl
  | some a =>
    cases b with
    | none => rfl
    | some b =>
      rw [operationCell, operationCell, Cell.same_text, Bool.eq_iff_iff, beq_iff_eq,
        decide_eq_true_iff, Option.some.injEq]
      exact ⟨Operation.text_injective, congrArg _⟩

variable {k : RuleKey} {row : Row} {b : ArtifactRecord} {name : String} {removed : Bool}

lemma ruleTexts_iff {b : RuleRecord} :
    (b.body.table = k.table ∧ b.body.operation.text = k.operation.text) ↔ b.body.key = k := by
  obtain ⟨table, operation⟩ := k
  rw [Rule.key, RuleKey.mk.injEq]
  exact and_congr_right fun _ => ⟨Operation.text_injective, congrArg _⟩

lemma hasTexts_rule {b : RuleRecord} (k : RuleKey) (h : row.cells = ruleRows.cells b) :
    hasTexts ruleTable [("table_name", k.table), ("operation", k.operation.text)] row =
      decide (b.body.key = k) := by
  have htable : cell ruleTable row "table_name" = .text b.body.table :=
    congrArg (List.getD · 0 Cell.null) h
  have hoperation : cell ruleTable row "operation" = .text b.body.operation.text :=
    congrArg (List.getD · 1 Cell.null) h
  rw [Bool.eq_iff_iff, decide_eq_true_iff, ← ruleTexts_iff]
  simp [hasTexts, htable, hoperation, Cell.same_text]

lemma hasTexts_claim {b : ClaimRecord} (name : String) (h : row.cells = claimRows.cells b) :
    hasTexts claimTable [("name", name)] row = decide (b.body.name = name) := by
  have hname : cell claimTable row "name" = .text b.body.name :=
    congrArg (List.getD · 0 Cell.null) h
  simp [hasTexts, hname, Cell.same_text, Bool.beq_eq_decide_eq]

lemma hasTexts_identifier (identifier : String) (h : row.cells = artifactRows.cells b) :
    hasTexts artifactTable [("identifier", identifier)] row =
      decide (b.identifier = identifier) := by
  have hidentifier : cell artifactTable row "identifier" = .text b.identifier :=
    congrArg (List.getD · 0 Cell.null) h
  simp [hasTexts, hidentifier, Cell.same_text, Bool.beq_eq_decide_eq]

/-! ### Contents -/

structure Contents where
  rules : List RuleRecord := []
  claims : List ClaimRecord := []
  artifacts : List ArtifactRecord := []

namespace Contents

def saveRule (c : Contents) (r : RuleRecord) : Contents :=
  { c with rules := r :: c.rules.filter fun b => b.body.key ≠ r.body.key }

def deleteRule (c : Contents) (k : RuleKey) : Contents :=
  { c with rules := c.rules.filter fun b => b.body.key ≠ k }

def saveClaim (c : Contents) (k : ClaimRecord) : Contents :=
  { c with claims := k :: c.claims.filter fun b => b.body.name ≠ k.body.name }

def deleteClaim (c : Contents) (name : String) : Contents :=
  { c with claims := c.claims.filter fun b => b.body.name ≠ name }

def saveArtifact (c : Contents) (a : ArtifactRecord) : Contents :=
  { c with artifacts := a :: c.artifacts.filter fun b => b.identifier ≠ a.identifier }

def deleteArtifact (c : Contents) (identifier : String) : Contents :=
  { c with artifacts := c.artifacts.filter fun b => b.identifier ≠ identifier }

end Contents

/-! ### Keyed records -/

/-- A database holds records in a table, each under its own key and with a property. -/
structure Keeps {α κ : Type} (T : RecordTable α) (keyOf : α → κ) (P : α → Prop) (db : Database)
    (as : List α) : Prop where
  holds : Holds T db as
  keys : (as.map keyOf).Nodup
  all : ∀ a ∈ as, P a

namespace Keeps

variable {α κ : Type} {T : RecordTable α} {keyOf : α → κ} {P : α → Prop} {db db' : Database}
  {as : List α}

/-- The records of a table stay when another table is written. -/
lemma writes (h : Keeps T keyOf P db as) (hwrites : Writes name db db')
    (hne : T.table.name ≠ name) : Keeps T keyOf P db' as := by
  obtain ⟨t, ht, hschema, hcells⟩ := h.holds.exists_table
  have hname : t.name = T.table.name := (congrArg Table.name hschema : t.schema.name = _)
  exact ⟨⟨t, hwrites.others _ t ht (hname ▸ hne), hschema, hcells⟩, h.keys, h.all⟩

lemma saved [DecidableEq κ] {a : α} (h : Keeps T keyOf P db as) (ha : P a)
    (hholds : Holds T db' (a :: as.filter fun b => keyOf b ≠ keyOf a)) :
    Keeps T keyOf P db' (a :: as.filter fun b => keyOf b ≠ keyOf a) where
  holds := hholds
  keys := by
    rw [List.map_cons, List.nodup_cons]
    refine ⟨fun hmem => ?_, h.keys.sublist (List.filter_sublist.map keyOf)⟩
    obtain ⟨b, hb, hkey⟩ := List.mem_map.mp hmem
    exact of_decide_eq_true (List.mem_filter.mp hb).2 hkey
  all := List.forall_mem_cons.mpr ⟨ha, fun b hb => h.all b (List.mem_filter.mp hb).1⟩

lemma delete [DecidableEq κ] {wanted : List (String × String)} {key : κ}
    (h : Keeps T keyOf P db as) (hdistinct : db.HasDistinctTables)
    (hwanted : ∀ row b, row.cells = T.cells b →
      hasTexts T.table wanted row = decide (keyOf b = key))
    (hdelete : Store.deleteRows db T.table wanted = .ok (db', removed)) :
    Keeps T keyOf P db' (as.filter fun b => keyOf b ≠ key) ∧ Writes T.table.name db db' := by
  obtain ⟨hholds, hwrites⟩ := h.holds.delete hdistinct hwanted hdelete
  have hfilter :
      (as.filter fun b => !decide (keyOf b = key)) = as.filter fun b => keyOf b ≠ key := by simp
  rw [hfilter] at hholds
  exact ⟨⟨hholds, h.keys.sublist (List.filter_sublist.map keyOf),
    fun b hb => h.all b (List.mem_filter.mp hb).1⟩, hwrites⟩

lemma eq_of_key {a b : α} (h : Keeps T keyOf P db as) (ha : a ∈ as) (hb : b ∈ as)
    (hkey : keyOf a = keyOf b) : a = b :=
  List.inj_on_of_nodup_map h.keys ha hb hkey

end Keeps

/-- A database with a store of given contents, each under its own key and with stamps that can be
read back. -/
structure Contains (db : Database) (c : Contents) : Prop where
  distinct : db.HasDistinctTables
  rules : Keeps ruleRows (fun r : RuleRecord => r.body.key) Stamped.IsRegular db c.rules
  claims : Keeps claimRows (fun k : ClaimRecord => k.body.name) Stamped.IsRegular db c.claims
  artifacts : Keeps artifactRows ArtifactRecord.identifier (fun a => a.createdAt.IsRegular) db
    c.artifacts

namespace Contains

variable {db db' : Database} {c : Contents} {rs : List RuleRecord}

/-! ### Writing -/

lemma keys_rule (r : RuleRecord) : Keys ruleRows (fun r : RuleRecord => r.body.key) r
    [("table_name", .text r.body.table), ("operation", .text r.body.operation.text)]
    [("rule_id", .text r.id.text), ("record", .text r.toJson.compact)] where
  noRowId := by decide
  hasKey b := by
    have hplaced : placed ruleTable [("table_name", .text r.body.table),
        ("operation", .text r.body.operation.text)] =
        [(0, .text r.body.table), (1, .text r.body.operation.text)] := rfl
    change hasKey ruleTable _ _ = true ↔ _
    rw [Store.hasKey, hplaced, ← ruleTexts_iff (k := r.body.key)]
    simp [ruleRows, Cell.same_text, Rule.key]
  changed b hkey := by
    obtain ⟨htable, hoperation⟩ := ruleTexts_iff.mpr hkey
    change [Cell.text b.body.table, .text b.body.operation.text, _, _] = _
    rw [htable, hoperation]
    rfl
  new := rfl

lemma keys_claim (k : ClaimRecord) : Keys claimRows (fun k : ClaimRecord => k.body.name) k
    [("name", .text k.body.name)]
    [("claim_id", .text k.id.text), ("record", .text k.toJson.compact)] where
  noRowId := by decide
  hasKey b := by
    have hplaced : placed claimTable [("name", .text k.body.name)] = [(0, .text k.body.name)] := rfl
    change hasKey claimTable _ _ = true ↔ _
    rw [Store.hasKey, hplaced]
    simp [claimRows, Cell.same_text]
  changed b hname := by
    change [Cell.text b.body.name, _, _] = _
    rw [hname]
    rfl
  new := rfl

def artifactValues (a : ArtifactRecord) : List (String × Cell) :=
  [("identifier", .text a.identifier), ("owner", .text a.owner.text),
    ("kind", .text a.kind.text), ("target", .text a.target),
    ("operation", operationCell a.operation), ("fingerprint", .text a.fingerprint),
    ("record", .text a.toJson.compact)]

lemma newCells_artifactValues (a : ArtifactRecord) :
    artifactTable.newCells (placed artifactTable (artifactValues a)) = artifactRows.cells a := by
  cases hop : a.operation <;> simp only [artifactRows, artifactValues, hop] <;> rfl

lemma saveRule {r : RuleRecord} (h : Contains db c) (hr : r.IsRegular)
    (hsave : Store.saveRule db r = .ok db') :
    Contains db' (c.saveRule r) ∧ Spares db db' := by
  obtain ⟨hholds, hwrites⟩ :=
    h.rules.holds.upsert h.distinct (keys_rule r) h.rules.keys (mapError_eq_ok.mp hsave)
  refine ⟨⟨h.distinct.congr (by rw [hwrites.schema]), h.rules.saved hr hholds, ?_, ?_⟩,
    hwrites.spares (by decide)⟩
  · exact h.claims.writes hwrites (by decide)
  · exact h.artifacts.writes hwrites (by decide)

lemma saveClaim {k : ClaimRecord} (h : Contains db c) (hk : k.IsRegular)
    (hsave : Store.saveClaim db k = .ok db') :
    Contains db' (c.saveClaim k) ∧ Spares db db' := by
  obtain ⟨hholds, hwrites⟩ :=
    h.claims.holds.upsert h.distinct (keys_claim k) h.claims.keys (mapError_eq_ok.mp hsave)
  refine ⟨⟨h.distinct.congr (by rw [hwrites.schema]), ?_, h.claims.saved hk hholds, ?_⟩,
    hwrites.spares (by decide)⟩
  · exact h.rules.writes hwrites (by decide)
  · exact h.artifacts.writes hwrites (by decide)

lemma saveArtifact {a : ArtifactRecord} (h : Contains db c) (ha : a.createdAt.IsRegular)
    (hsave : Store.saveArtifact db a = .ok db') :
    Contains db' (c.saveArtifact a) ∧ Spares db db' := by
  have hclash : ∀ b, (artifactTable.uniqueSets.any fun set =>
      Table.agree set (artifactRows.cells b) (artifactRows.cells a)) =
        decide (b.identifier = a.identifier) := by
    intro b
    rw [show artifactTable.uniqueSets = [[0]] by decide]
    simp [Table.agree, artifactRows, Cell.isNull, Cell.same_text, Bool.beq_eq_decide_eq]
  obtain ⟨hholds, hwrites⟩ := h.artifacts.holds.replace h.distinct (by decide)
    (newCells_artifactValues a) hclash (mapError_eq_ok.mp hsave)
  refine ⟨⟨h.distinct.congr (by rw [hwrites.schema]), ?_, ?_, h.artifacts.saved ha hholds⟩,
    hwrites.spares (by decide)⟩
  · exact h.rules.writes hwrites (by decide)
  · exact h.claims.writes hwrites (by decide)

lemma deleteRule (h : Contains db c) (hdelete : Store.deleteRule db k = .ok (db', removed)) :
    Contains db' (c.deleteRule k) ∧ Spares db db' := by
  obtain ⟨hrules, hwrites⟩ := h.rules.delete h.distinct (fun _ _ => hasTexts_rule k) hdelete
  refine ⟨⟨h.distinct.congr (by rw [hwrites.schema]), hrules, ?_, ?_⟩,
    hwrites.spares (by decide)⟩
  · exact h.claims.writes hwrites (by decide)
  · exact h.artifacts.writes hwrites (by decide)

lemma deleteClaim (h : Contains db c) (hdelete : Store.deleteClaim db name = .ok (db', removed)) :
    Contains db' (c.deleteClaim name) ∧ Spares db db' := by
  obtain ⟨hclaims, hwrites⟩ := h.claims.delete h.distinct (fun _ _ => hasTexts_claim name) hdelete
  refine ⟨⟨h.distinct.congr (by rw [hwrites.schema]), ?_, hclaims, ?_⟩,
    hwrites.spares (by decide)⟩
  · exact h.rules.writes hwrites (by decide)
  · exact h.artifacts.writes hwrites (by decide)

lemma deleteArtifact {identifier : String} (h : Contains db c)
    (hdelete : Store.deleteArtifact db identifier = .ok (db', removed)) :
    Contains db' (c.deleteArtifact identifier) ∧ Spares db db' := by
  obtain ⟨hartifacts, hwrites⟩ :=
    h.artifacts.delete h.distinct (fun _ _ => hasTexts_identifier identifier) hdelete
  refine ⟨⟨h.distinct.congr (by rw [hwrites.schema]), ?_, ?_, hartifacts⟩,
    hwrites.spares (by decide)⟩
  · exact h.rules.writes hwrites (by decide)
  · exact h.claims.writes hwrites (by decide)

/-! ### Reading -/

lemma recordText_rule {b : RuleRecord} (h : row.cells = ruleRows.cells b) :
    cell ruleTable row "record" = .text b.toJson.compact :=
  congrArg (List.getD · 3 Cell.null) h

lemma recordText_claim {b : ClaimRecord} (h : row.cells = claimRows.cells b) :
    cell claimTable row "record" = .text b.toJson.compact :=
  congrArg (List.getD · 2 Cell.null) h

lemma recordText_artifact (h : row.cells = artifactRows.cells b) :
    cell artifactTable row "record" = .text b.toJson.compact :=
  congrArg (List.getD · 6 Cell.null) h

lemma readRecord_rule {r r' : RuleRecord} (h : Contains db c) (hr : r ∈ c.rules) :
    readRecord RuleRecord.decode r.toJson.compact = .ok r' ↔
      r.body.IsReadable ∧ r' = r.reread := by
  obtain ⟨hcreated, hupdated⟩ := h.rules.all r hr
  exact RuleRecord.readRecord_eq_ok hcreated hupdated

lemma readRecord_claim {k : ClaimRecord} (h : Contains db c) (hk : k ∈ c.claims) :
    readRecord ClaimRecord.decode k.toJson.compact = .ok k := by
  obtain ⟨hcreated, hupdated⟩ := h.claims.all k hk
  exact ClaimRecord.readRecord_toJson hcreated hupdated

lemma readRecord_artifact {a : ArtifactRecord} (h : Contains db c) (ha : a ∈ c.artifacts) :
    readRecord decodeArtifact a.toJson.compact = .ok a :=
  ArtifactRecord.readRecord_toJson (h.artifacts.all a ha)

/-- A rule is found by its key and read if it can be. -/
lemma rule_eq_ok {o : Option RuleRecord} (h : Contains db c) :
    Store.rule db k = .ok o ↔ (o = none ∧ ∀ r ∈ c.rules, r.body.key ≠ k) ∨
      ∃ r ∈ c.rules, r.body.key = k ∧ r.body.IsReadable ∧ o = some r.reread := by
  obtain ⟨t, htable, hschema, hread⟩ := h.rules.holds.exists_read ruleTable rfl RuleRecord.decode
    ["record", "table_name", "operation"] (by decide) fun _ _ => recordText_rule
  obtain ⟨rs, hperm, hfirst, -⟩ := hread _ (fun b => decide (b.body.key = k)) _
    (fun _ _ => hasTexts_rule k) (.refl _)
  have hrule : Store.rule db k = readHead RuleRecord.decode (fun r => r.toJson.compact) rs := by
    rw [Store.rule, htable, ok_bind, rowsWith, hasTexts_of_schema hschema]
    exact hfirst
  rw [hrule]
  constructor
  · intro hhead
    obtain ⟨rfl, hnone⟩ | ⟨r, hr, hkey, b, hb, rfl⟩ := readHead_eq_ok hperm hhead
    · exact .inl ⟨rfl, fun r hr => of_decide_eq_false (hnone r hr)⟩
    · obtain ⟨hreadable, rfl⟩ := (h.readRecord_rule hr).mp hb
      exact .inr ⟨r, hr, of_decide_eq_true hkey, hreadable, rfl⟩
  · rintro (⟨rfl, hnone⟩ | ⟨r, hr, hkey, hreadable, rfl⟩)
    · have hnil : c.rules.filter (fun b => decide (b.body.key = k)) = [] :=
        List.filter_eq_nil_iff.mpr fun r hr => by simpa using hnone r hr
      rw [hnil, List.perm_nil] at hperm
      rw [hperm, readHead]
    · rw [readHead_of_unique hperm hr (decide_eq_true hkey) fun b hb hkey' =>
        h.rules.eq_of_key hb hr ((of_decide_eq_true hkey').trans hkey.symm),
        (h.readRecord_rule hr).mpr ⟨hreadable, rfl⟩]
      rfl

lemma mapM_readRecord_rule {rs' : List RuleRecord} (h : Contains db c)
    (hrs : ∀ r ∈ rs, r ∈ c.rules) :
    (rs.mapM fun r => readRecord RuleRecord.decode r.toJson.compact) = .ok rs' ↔
      (∀ r ∈ rs, r.body.IsReadable) ∧ rs' = rs.map RuleRecord.reread := by
  have hmap : (∀ r ∈ rs, r.body.IsReadable) →
      (rs.mapM fun r => readRecord RuleRecord.decode r.toJson.compact) =
        .ok (rs.map RuleRecord.reread) := fun hreadable =>
    Json.mapM_eq_ok fun r hr => (h.readRecord_rule (hrs r hr)).mpr ⟨hreadable r hr, rfl⟩
  constructor
  · intro hread
    have hreadable : ∀ r ∈ rs, r.body.IsReadable := fun r hr => by
      obtain ⟨r', hr'⟩ := Json.of_mapM_eq_ok hread r hr
      exact ((h.readRecord_rule (hrs r hr)).mp hr').1
    rw [hmap hreadable] at hread
    exact ⟨hreadable, (Except.ok.inj hread).symm⟩
  · rintro ⟨hreadable, rfl⟩
    exact hmap hreadable

/-- The rules that are listed, with their rows in some order. -/
lemma exists_rules (h : Contains db c) : ∃ rs : List RuleRecord, rs.Perm c.rules ∧
    Store.rules db = (rs.mapM fun r => readRecord RuleRecord.decode r.toJson.compact) >>= fun rs =>
      pure (Text.sortByKey RuleKey.lt (fun r : RuleRecord => r.body.key) rs) := by
  obtain ⟨t, htable, hschema, hread⟩ := h.rules.holds.exists_read ruleTable rfl RuleRecord.decode
    ["record"] (by decide) fun _ _ => recordText_rule
  obtain ⟨rs, hperm, -, hrecords⟩ := hread (fun _ => true) (fun _ => true) t.rows (fun _ _ _ => rfl)
    (by rw [List.filter_true])
  rw [List.filter_true] at hperm
  refine ⟨rs, hperm, ?_⟩
  rw [Store.rules, htable, ok_bind, hrecords]

lemma rules_eq_ok (h : Contains db c) (hrules : Store.rules db = .ok rs) :
    (∀ r ∈ c.rules, r.body.IsReadable) ∧ rs.Perm (c.rules.map RuleRecord.reread) := by
  obtain ⟨stored, hperm, heq⟩ := h.exists_rules
  rw [heq] at hrules
  obtain ⟨read, hread, hrules⟩ := bind_eq_ok.mp hrules
  cases hrules
  obtain ⟨hreadable, rfl⟩ := (h.mapM_readRecord_rule fun r hr => hperm.mem_iff.mp hr).mp hread
  exact ⟨fun r hr => hreadable r (hperm.mem_iff.mpr hr),
    (Text.perm_sortByKey _).trans (hperm.map _)⟩

lemma rules_isOk (h : Contains db c) (hreadable : ∀ r ∈ c.rules, r.body.IsReadable) :
    ∃ rs, Store.rules db = .ok rs := by
  obtain ⟨stored, hperm, heq⟩ := h.exists_rules
  have hread := (h.mapM_readRecord_rule fun r hr => hperm.mem_iff.mp hr).mpr
    ⟨fun r hr => hreadable r (hperm.mem_iff.mp hr), rfl⟩
  rw [heq, hread]
  exact ⟨_, rfl⟩

lemma exists_rulesFor (table : String) (h : Contains db c) :
    ∃ stored : List RuleRecord, stored.Perm (c.rules.filter fun r => r.body.table = table) ∧
      Store.rulesFor db table =
        (stored.mapM fun r => readRecord RuleRecord.decode r.toJson.compact) >>= fun rs =>
          pure (Text.sortByKey (fun a b : Nat => a < b)
            (fun r : RuleRecord => r.body.operation.rank) rs) := by
  obtain ⟨t, htable, hschema, hread⟩ := h.rules.holds.exists_read ruleTable rfl RuleRecord.decode
    ["record", "table_name"] (by decide) fun _ _ => recordText_rule
  obtain ⟨stored, hperm, -, hrecords⟩ := hread (hasTexts t [("table_name", table)])
    (fun r => decide (r.body.table = table)) (ordered t "operation" (rowsWith t _))
    (fun row b hb => by
      have hcell : cell ruleTable row "table_name" = .text b.body.table :=
        congrArg (List.getD · 0 Cell.null) hb
      rw [hasTexts_of_schema hschema, hasTexts]
      simp [hcell, Cell.same_text, Bool.beq_eq_decide_eq])
    (Text.perm_sortByKey _)
  refine ⟨stored, hperm, ?_⟩
  rw [Store.rulesFor, htable, ok_bind, hrecords]

lemma rulesFor_eq_ok {table : String} (h : Contains db c)
    (hrules : Store.rulesFor db table = .ok rs) :
    rs.Perm ((c.rules.filter fun r => r.body.table = table).map RuleRecord.reread) := by
  obtain ⟨stored, hperm, heq⟩ := h.exists_rulesFor table
  rw [heq] at hrules
  obtain ⟨read, hread, hrules⟩ := bind_eq_ok.mp hrules
  cases hrules
  obtain ⟨-, rfl⟩ := (h.mapM_readRecord_rule fun r hr =>
    (List.mem_filter.mp (hperm.mem_iff.mp hr)).1).mp hread
  exact (Text.perm_sortByKey _).trans (hperm.map _)

lemma claim_eq_ok {o : Option ClaimRecord} (h : Contains db c)
    (hclaim : Store.claim db name = .ok o) :
    (o = none ∧ ∀ k ∈ c.claims, k.body.name ≠ name) ∨
      ∃ k ∈ c.claims, k.body.name = name ∧ o = some k := by
  obtain ⟨t, htable, hschema, hread⟩ := h.claims.holds.exists_read claimTable rfl ClaimRecord.decode
    ["record", "name"] (by decide) fun _ _ => recordText_claim
  obtain ⟨ks, hperm, hfirst, -⟩ := hread _ (fun b => decide (b.body.name = name)) _
    (fun _ _ => hasTexts_claim name) (.refl _)
  rw [Store.claim, htable, ok_bind, rowsWith, hasTexts_of_schema hschema] at hclaim
  obtain ⟨rfl, hnone⟩ | ⟨k, hk, hname, b, hb, rfl⟩ := readHead_eq_ok hperm (hfirst ▸ hclaim)
  · exact .inl ⟨rfl, fun k hk => of_decide_eq_false (hnone k hk)⟩
  · rw [h.readRecord_claim hk] at hb
    cases hb
    exact .inr ⟨k, hk, of_decide_eq_true hname, rfl⟩

lemma mapM_eq_self {ε α : Type} {f : α → Except ε α} {as : List α}
    (h : ∀ a ∈ as, f a = .ok a) : as.mapM f = .ok as := by
  rw [Json.mapM_eq_ok (g := fun a => a) h, List.map_id']

lemma claims_isOk (h : Contains db c) :
    ∃ ks, Store.claims db = .ok ks ∧ ks.Perm c.claims := by
  obtain ⟨t, htable, hschema, hread⟩ := h.claims.holds.exists_read claimTable rfl ClaimRecord.decode
    ["record", "name"] (by decide) fun _ _ => recordText_claim
  obtain ⟨ks, hperm, -, hrecords⟩ := hread (fun _ => true) (fun _ => true)
    (ordered t "name" t.rows) (fun _ _ _ => rfl)
    (by rw [List.filter_true]; exact Text.perm_sortByKey _)
  rw [List.filter_true] at hperm
  refine ⟨ks, ?_, hperm⟩
  rw [Store.claims, htable, ok_bind, hrecords]
  exact mapM_eq_self fun k hk => h.readRecord_claim (hperm.mem_iff.mp hk)

lemma hasTexts_owner (owner : Uuid) (h : row.cells = artifactRows.cells b) :
    hasTexts artifactTable [("owner", owner.text)] row = decide (b.owner = owner) := by
  have howner : cell artifactTable row "owner" = .text b.owner.text :=
    congrArg (List.getD · 1 Cell.null) h
  have htext : b.owner.text = owner.text ↔ b.owner = owner := ⟨Uuid.text_injective, congrArg _⟩
  simp [hasTexts, howner, Cell.same_text, Bool.beq_eq_decide_eq, htext]

lemma artifactsOf_isOk (owner : Uuid) (h : Contains db c) :
    ∃ as, Store.artifactsOf db owner = .ok as ∧
      as.Perm (c.artifacts.filter fun a => a.owner = owner) := by
  obtain ⟨t, htable, hschema, hread⟩ := h.artifacts.holds.exists_read artifactTable rfl
    decodeArtifact ["record", "owner", "identifier"] (by decide) fun _ _ => recordText_artifact
  obtain ⟨as, hperm, -, hrecords⟩ := hread (hasTexts t [("owner", owner.text)])
    (fun a => decide (a.owner = owner)) (ordered t "identifier" (rowsWith t _))
    (fun row b hb => by
      rw [hasTexts_of_schema hschema]
      exact hasTexts_owner owner hb)
    (Text.perm_sortByKey _)
  refine ⟨as, ?_, hperm⟩
  rw [Store.artifactsOf, htable, ok_bind, hrecords]
  exact mapM_eq_self fun a ha =>
    h.readRecord_artifact (List.mem_filter.mp (hperm.mem_iff.mp ha)).1

lemma artifacts_isOk (h : Contains db c) :
    ∃ as, Store.artifacts db = .ok as ∧ as.Perm c.artifacts := by
  obtain ⟨t, htable, hschema, hread⟩ := h.artifacts.holds.exists_read artifactTable rfl
    decodeArtifact ["record", "identifier"] (by decide) fun _ _ => recordText_artifact
  obtain ⟨as, hperm, -, hrecords⟩ := hread (fun _ => true) (fun _ => true)
    (ordered t "identifier" t.rows) (fun _ _ _ => rfl)
    (by rw [List.filter_true]; exact Text.perm_sortByKey _)
  rw [List.filter_true] at hperm
  refine ⟨as, ?_, hperm⟩
  rw [Store.artifacts, htable, ok_bind, hrecords]
  exact mapM_eq_self fun a ha => h.readRecord_artifact (hperm.mem_iff.mp ha)

lemma hasTexts_target (kind : ArtifactKind) (target : String)
    (h : row.cells = artifactRows.cells b) :
    hasTexts artifactTable [("kind", kind.text), ("target", target)] row =
      decide (b.kind = kind ∧ b.target = target) := by
  have hkind : cell artifactTable row "kind" = .text b.kind.text :=
    congrArg (List.getD · 2 Cell.null) h
  have htarget : cell artifactTable row "target" = .text b.target :=
    congrArg (List.getD · 3 Cell.null) h
  have htext : b.kind.text = kind.text ↔ b.kind = kind :=
    ⟨ArtifactKind.text_injective, congrArg _⟩
  simp [hasTexts, hkind, htarget, Cell.same_text, Bool.beq_eq_decide_eq, htext]

lemma findArtifact_isOk (kind : ArtifactKind) (target : String) (operation : Option Operation)
    (h : Contains db c) :
    ∃ o, Store.findArtifact db kind target operation = .ok o ∧
      ((o = none ∧ ∀ a ∈ c.artifacts,
          ¬ (a.kind = kind ∧ a.target = target ∧ a.operation = operation)) ∨
        ∃ a ∈ c.artifacts, (a.kind = kind ∧ a.target = target ∧ a.operation = operation) ∧
          o = some a) := by
  obtain ⟨t, htable, hschema, hread⟩ := h.artifacts.holds.exists_read artifactTable rfl
    decodeArtifact ["record", "kind", "target", "operation"] (by decide)
    fun _ _ => recordText_artifact
  obtain ⟨as, hperm, hfirst, -⟩ := hread
    (fun row => hasTexts t [("kind", kind.text), ("target", target)] row &&
      (cell t row "operation").same (operationCell operation))
    (fun a => decide (a.kind = kind ∧ a.target = target ∧ a.operation = operation)) _
    (fun row b hb => by
      have hoperation : cell artifactTable row "operation" = operationCell b.operation :=
        congrArg (List.getD · 4 Cell.null) hb
      rw [hasTexts_of_schema hschema, cell_of_schema hschema, hasTexts_target kind target hb,
        hoperation, operationCell_same, ← Bool.decide_and]
      exact decide_eq_decide.mpr and_assoc)
    (.refl _)
  have hfind : Store.findArtifact db kind target operation =
      readHead decodeArtifact (fun a => a.toJson.compact) as := by
    rw [Store.findArtifact, htable, ok_bind, rowsWith, List.filter_filter, ← hfirst]
    simp only [Bool.and_comm]
  -- Every record of an artifact can be read, unlike that of a rule.
  have hread : ∃ o, readHead decodeArtifact (fun a => a.toJson.compact) as = .ok o := by
    cases as with
    | nil => exact ⟨none, rfl⟩
    | cons a rest =>
      obtain ⟨ha, -⟩ := List.mem_filter.mp (hperm.mem_iff.mp List.mem_cons_self)
      exact ⟨some a, by rw [readHead, h.readRecord_artifact ha]; rfl⟩
  obtain ⟨o, ho⟩ := hread
  refine ⟨o, hfind.trans ho, ?_⟩
  obtain ⟨rfl, hnone⟩ | ⟨a, ha, hmatch, b, hb, rfl⟩ := readHead_eq_ok hperm ho
  · exact .inl ⟨rfl, fun a ha => of_decide_eq_false (hnone a ha)⟩
  · rw [h.readRecord_artifact ha] at hb
    cases hb
    exact .inr ⟨a, ha, of_decide_eq_true hmatch, rfl⟩

end Contains

end Store

end RowPolicy
