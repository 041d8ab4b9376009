import Mathlib.Data.List.Induction
import Mathlib.Data.List.Nodup
import RowPolicy.Document.Basic
import RowPolicy.Proofs.Consistency

/-!
# The order in which rules are defined

A write rule can only be defined after the read rule of its table, so a document is applied with its
reads first. This changes nothing but the outcome of the check: insertions under different keys
commute, a read and a write never have the same key, and so among the rules with one key the last
one of the document still wins.
-/

namespace RowPolicy

namespace RuleKey

variable {a b c : RuleKey}

lemma lt_iff : a.lt b = true ↔
    a.table < b.table ∨ a.table = b.table ∧ a.operation.rank < b.operation.rank := by
  simp [lt]

lemma lt_trans (hab : a.lt b = true) (hbc : b.lt c = true) : a.lt c = true := by
  rw [lt_iff] at *
  obtain hab | ⟨hab, hrank⟩ := hab
  · obtain hbc | ⟨hbc, -⟩ := hbc
    · exact .inl (String.lt_trans hab hbc)
    · exact .inl (hbc ▸ hab)
  · obtain hbc | ⟨hbc, hrank'⟩ := hbc
    · exact .inl (hab ▸ hbc)
    · exact .inr ⟨hab.trans hbc, Nat.lt_trans hrank hrank'⟩

lemma lt_irrefl (a : RuleKey) : a.lt a = false := by
  simp [lt]

lemma lt_of_not_lt (hne : a ≠ b) (h : a.lt b ≠ true) : b.lt a = true := by
  rw [Ne, lt_iff, not_or] at h
  rw [lt_iff]
  by_cases htable : b.table < a.table
  · exact .inl htable
  · have heq : a.table = b.table :=
      String.le_antisymm (String.not_lt.mp htable) (String.not_lt.mp h.1)
    have hop : a.operation ≠ b.operation := fun hop => hne (RuleKey.mk.injEq .. ▸ ⟨heq, hop⟩)
    have hrank : ∀ op op' : Operation, op ≠ op' → ¬ op.rank < op'.rank → op'.rank < op.rank := by
      intro op op'
      cases op <;> cases op' <;> simp [Operation.rank]
    exact .inr ⟨heq.symm, hrank _ _ hop fun hlt => h.2 ⟨heq, hlt⟩⟩

lemma not_lt_of_lt (h : a.lt b = true) : b.lt a = false := by
  refine Bool.eq_false_iff.mpr fun h' => ?_
  have hself := lt_trans h h'
  rw [lt_irrefl] at hself
  cases hself

lemma ne_of_lt (h : a.lt b = true) : a ≠ b := by
  rintro rfl
  rw [lt_irrefl] at h
  cases h

lemma lt_trichotomy (a b : RuleKey) : a = b ∨ a.lt b = true ∨ b.lt a = true := by
  by_cases heq : a = b
  · exact .inl heq
  · by_cases hlt : a.lt b = true
    · exact .inr (.inl hlt)
    · exact .inr (.inr (lt_of_not_lt heq hlt))

end RuleKey

/-! ### Insertions that commute -/

namespace Keyed

variable {α : Type} {key : α → RuleKey} {a b x : α} {as xs : List α}

lemma insert_cons_of_lt (h : (key a).lt (key x) = true) :
    insert RuleKey.lt key a (x :: xs) = a :: x :: xs := by
  rw [insert, if_neg, if_pos h]
  exact fun heq => RuleKey.ne_of_lt h (eq_of_beq heq).symm

lemma insert_cons_of_gt (h : (key x).lt (key a) = true) :
    insert RuleKey.lt key a (x :: xs) = x :: insert RuleKey.lt key a xs := by
  rw [insert, if_neg, if_neg]
  · simp [RuleKey.not_lt_of_lt h]
  · exact fun heq => RuleKey.ne_of_lt h (eq_of_beq heq)

lemma insert_cons_of_eq (h : key x = key a) :
    insert RuleKey.lt key a (x :: xs) = a :: xs := by
  rw [insert, if_pos (beq_iff_eq.mpr h)]

lemma insert_comm_of_lt (h : (key a).lt (key b) = true) :
    insert RuleKey.lt key b (insert RuleKey.lt key a as) =
      insert RuleKey.lt key a (insert RuleKey.lt key b as) := by
  induction as with
  | nil => exact (insert_cons_of_gt h).trans (insert_cons_of_lt h).symm
  | cons x xs ih =>
    obtain hx | hx | hx := RuleKey.lt_trichotomy (key x) (key a)
    · have hxb : (key x).lt (key b) = true := hx ▸ h
      rw [insert_cons_of_eq hx, insert_cons_of_gt h, insert_cons_of_gt hxb, insert_cons_of_eq hx]
    · have hxb : (key x).lt (key b) = true := RuleKey.lt_trans hx h
      rw [insert_cons_of_gt hx, insert_cons_of_gt hxb, insert_cons_of_gt hxb, insert_cons_of_gt hx,
        ih]
    · -- The first element stays the first one, whether `b` comes before the head or after it.
      rw [insert_cons_of_lt hx, insert_cons_of_gt h]
      obtain hxb | hxb | hxb := RuleKey.lt_trichotomy (key x) (key b)
      · rw [insert_cons_of_eq hxb, insert_cons_of_lt h]
      · rw [insert_cons_of_gt hxb, insert_cons_of_lt hx]
      · rw [insert_cons_of_lt hxb, insert_cons_of_lt h]

lemma insert_comm (h : key a ≠ key b) :
    insert RuleKey.lt key b (insert RuleKey.lt key a as) =
      insert RuleKey.lt key a (insert RuleKey.lt key b as) := by
  obtain heq | hlt | hlt := RuleKey.lt_trichotomy (key a) (key b)
  · exact absurd heq h
  · exact insert_comm_of_lt hlt
  · exact (insert_comm_of_lt hlt).symm

end Keyed

namespace Operation

lemma beq_read (op : Operation) : (op == .read) = !op.isWrite := by
  cases op <;> rfl

lemma bne_read (op : Operation) : (op != .read) = op.isWrite := by
  cases op <;> rfl

lemma isWrite_iff {op : Operation} : op.isWrite = true ↔ op ≠ .read := by
  rw [← bne_read, bne_iff_ne]

end Operation

/-! ### Reads first -/

namespace Document

lemma orderedRules_perm (d : Document) : d.orderedRules.Perm d.rules :=
  List.filter_append_perm (fun r : Rule => r.operation == .read) d.rules

/-- Reads stay in the order of the document, and so do writes. -/
lemma filter_orderedRules (d : Document) (write : Bool) :
    (d.orderedRules.filter fun r => r.operation.isWrite == write) =
      d.rules.filter fun r => r.operation.isWrite == write := by
  simp only [orderedRules, Operation.beq_read, Operation.bne_read, List.filter_append,
    List.filter_filter]
  cases write with
  | false => simp
  | true => simp

lemma orderedRules_pairwise (d : Document) :
    d.orderedRules.Pairwise fun r s => s.operation = .read → r.operation = .read := by
  have hreads : ∀ r ∈ d.rules.filter (fun r => r.operation == .read), r.operation = .read := by simp
  have hwrites : ∀ r ∈ d.rules.filter (fun r => r.operation != .read), r.operation ≠ .read := by
    simp
  refine List.pairwise_append.mpr ⟨?_, ?_, fun r hr s _ _ => hreads r hr⟩
  · exact List.pairwise_of_forall_mem_list fun r hr s _ _ => hreads r hr
  · exact List.pairwise_of_forall_mem_list fun r _ s hs h => absurd h (hwrites s hs)

end Document

/-! ### Rules defined one after the other -/

namespace Catalog

variable {c c' : Catalog} {r s : Rule} {rs : List Rule} {k : RuleKey}

/-- Define rules one after the other, each checked against the catalog that the ones before it
leave. -/
def defineAll (c : Catalog) (rs : List Rule) : Checked Catalog :=
  rs.foldlM (fun c r => do c.checkDefine r; pure (c.insertRule r)) c

/-- Whether a rule is a write whose table has a read rule neither in a catalog nor in a list. -/
def lacksRead (c : Catalog) (rs : List Rule) (r : Rule) : Bool :=
  r.operation.isWrite && !c.hasRule ⟨r.table, .read⟩ && !rs.any fun s => s.key == ⟨r.table, .read⟩

lemma rule?_insertRule : (c.insertRule r).rule? k = if r.key = k then some r else c.rule? k := by
  split_ifs with h
  · subst h
    exact Keyed.get?_insert_self
  · exact Keyed.get?_insert_of_ne h

lemma insertRule_comm (h : r.key ≠ s.key) :
    (c.insertRule r).insertRule s = (c.insertRule s).insertRule r := by
  simp only [insertRule, Keyed.insert_comm h]

/-- Among the rules of a list with one key, the last one wins. -/
lemma rule?_foldl_insertRule (c : Catalog) (rs : List Rule) (k : RuleKey) :
    (rs.foldl insertRule c).rule? k = (rs.reverse.find? fun r => r.key == k).or (c.rule? k) := by
  induction rs using List.reverseRecOn with
  | nil => rfl
  | append_singleton rs r ih =>
    rw [List.foldl_concat, rule?_insertRule, List.reverse_concat, ih]
    split_ifs with h
    · rw [List.find?_cons_of_pos (by simpa using h), Option.some_or]
    · rw [List.find?_cons_of_neg (by simpa using h)]

lemma hasRule_foldl_insertRule : (rs.foldl insertRule c).hasRule k =
    (c.hasRule k || rs.any fun s => s.key == k) := by
  rw [hasRule, rule?_foldl_insertRule, Option.isSome_or, List.isSome_find?, List.any_reverse,
    Bool.or_comm, hasRule]

lemma foldl_insertRule_comm (h : ∀ s ∈ rs, r.key ≠ s.key) :
    rs.foldl insertRule (c.insertRule r) = (rs.foldl insertRule c).insertRule r := by
  induction rs generalizing c with
  | nil => rfl
  | cons s rs ih =>
    rw [List.foldl_cons, List.foldl_cons, insertRule_comm (h s List.mem_cons_self),
      ih fun s' hs' => h s' (List.mem_cons_of_mem s hs')]

/-- Reads and writes have different keys, so it makes no difference which are inserted first. -/
lemma foldl_insertRule_orderedRules (c : Catalog) (rs : List Rule) :
    ((rs.filter fun r => r.operation == .read) ++ rs.filter fun r => r.operation != .read).foldl
      insertRule c = rs.foldl insertRule c := by
  induction rs generalizing c with
  | nil => rfl
  | cons r rs ih =>
    rw [List.foldl_cons, ← ih]
    by_cases hr : r.operation = .read
    · simp [hr]
    · have hkey : ∀ s ∈ rs.filter (fun r => r.operation == .read), r.key ≠ s.key := by
        intro s hs heq
        have hs : s.operation = .read := by simpa using (List.mem_filter.mp hs).2
        exact hr ((congrArg RuleKey.operation heq).trans hs)
      simp [hr, foldl_insertRule_comm hkey]

/-- The rules of a list that has distinct keys can be inserted in any order. -/
lemma foldl_insertRule_perm {rs' : List Rule} (hkeys : (rs.map Rule.key).Nodup)
    (h : rs.Perm rs') (c : Catalog) : rs'.foldl insertRule c = rs.foldl insertRule c := by
  refine (h.foldl_eq' (fun r hr s hs c => ?_) c).symm
  by_cases hkey : s.key = r.key
  · rw [List.inj_on_of_nodup_map hkeys hs hr hkey]
  · exact insertRule_comm (Ne.symm hkey)

/-! ### The outcome of a document -/

/-- Defining reads needs nothing of the catalog. -/
lemma defineAll_reads (h : ∀ r ∈ rs, r.operation = .read) (c : Catalog) :
    c.defineAll rs = .ok (rs.foldl insertRule c) := by
  induction rs generalizing c with
  | nil => rfl
  | cons r rs ih =>
    have hr : c.checkDefine r = .ok () := by
      simp [checkDefine, h r List.mem_cons_self, Operation.isWrite]
    rw [defineAll, List.foldlM_cons, hr]
    exact ih (fun s hs => h s (List.mem_cons_of_mem r hs)) _

/-- Writes are defined up to the first one whose table has no read rule: a write that is defined
brings none. -/
lemma defineAll_writes (h : ∀ r ∈ rs, r.operation ≠ .read) (c : Catalog) :
    c.defineAll rs = match rs.find? fun r => !c.hasRule ⟨r.table, .read⟩ with
      | some r => .error (.missingReadRule r.table r.operation)
      | none => .ok (rs.foldl insertRule c) := by
  induction rs generalizing c with
  | nil => rfl
  | cons r rs ih =>
    have hwrite : r.operation.isWrite = true := Operation.isWrite_iff.mpr (h r List.mem_cons_self)
    rw [defineAll, List.foldlM_cons, checkDefine, hwrite, Bool.true_and, List.find?_cons]
    cases hread : c.hasRule ⟨r.table, .read⟩ with
    | false => rfl
    | true =>
      have hkeep : ∀ table, (c.insertRule r).hasRule ⟨table, .read⟩ = c.hasRule ⟨table, .read⟩ :=
        fun table => by
          rw [hasRule, rule?_insertRule, if_neg, hasRule]
          exact fun hkey => h r List.mem_cons_self (congrArg RuleKey.operation hkey)
      have hrest := ih (fun s hs => h s (List.mem_cons_of_mem r hs)) (c.insertRule r)
      simp only [hkeep] at hrest
      exact hrest

lemma hasRule_foldl_reads (c : Catalog) (rs : List Rule) (table : String) :
    ((rs.filter fun r => r.operation == .read).foldl insertRule c).hasRule ⟨table, .read⟩ =
      (c.hasRule ⟨table, .read⟩ || rs.any fun s => s.key == ⟨table, .read⟩) := by
  rw [hasRule_foldl_insertRule, List.any_filter]
  congr 2
  funext s
  by_cases hkey : s.key = ⟨table, .read⟩
  · have hs : s.operation = .read := congrArg RuleKey.operation hkey
    simp [hkey, hs]
  · simp [hkey]

/-- A document is refused at its first write rule without a read rule. Otherwise its rules are
inserted as they are listed. -/
lemma defineAll_orderedRules (c : Catalog) (d : Document) :
    c.defineAll d.orderedRules = match d.rules.find? (c.lacksRead d.rules) with
      | some r => .error (.missingReadRule r.table r.operation)
      | none => .ok (d.rules.foldl insertRule c) := by
  have hread : ∀ r ∈ d.rules.filter fun r => r.operation == .read, r.operation = .read := by simp
  have hwrite : ∀ r ∈ d.rules.filter fun r => r.operation != .read, r.operation ≠ .read := by simp
  have hreads := defineAll_reads hread c
  have hwrites := defineAll_writes hwrite
    ((d.rules.filter fun r => r.operation == .read).foldl insertRule c)
  have hlacks : (fun r : Rule => decide ((r.operation != .read) = true ∧
      (!(c.hasRule ⟨r.table, .read⟩ || d.rules.any fun s => s.key == ⟨r.table, .read⟩)) = true)) =
        c.lacksRead d.rules := by
    funext r
    rw [Operation.bne_read, lacksRead, Bool.not_or, Bool.and_assoc, Bool.decide_and,
      Bool.decide_eq_true, Bool.decide_eq_true]
  simp only [hasRule_foldl_reads] at hwrites
  rw [List.find?_filter, hlacks, ← List.foldl_append, foldl_insertRule_orderedRules] at hwrites
  rw [← hwrites, Document.orderedRules, defineAll, List.foldlM_append, ← defineAll, hreads]
  rfl

lemma lacksRead_eq_true : c.lacksRead rs r = true ↔ r.operation.isWrite = true ∧
    ¬ (c.hasRule ⟨r.table, .read⟩ = true ∨ ∃ s ∈ rs, s.key = ⟨r.table, .read⟩) := by
  simp [lacksRead, and_assoc]

lemma defineAll_orderedRules_toOption (c : Catalog) (d : Document) :
    (c.defineAll d.orderedRules).toOption =
      if d.rules.any (c.lacksRead d.rules) then none else some (d.rules.foldl insertRule c) := by
  rw [defineAll_orderedRules, ← List.isSome_find?]
  cases d.rules.find? (c.lacksRead d.rules) with
  | none => rfl
  | some r => rfl

lemma any_lacksRead_perm {rs' : List Rule} (h : rs.Perm rs') (c : Catalog) :
    rs'.any (c.lacksRead rs') = rs.any (c.lacksRead rs) := by
  have hlacks : c.lacksRead rs' = c.lacksRead rs := by
    funext r
    rw [lacksRead, lacksRead, h.any_eq]
  rw [hlacks, h.any_eq]

/-- A document can be defined with its reads first if each of its writes has a read rule, in the
catalog or in the document. The catalog is then the one that has its rules inserted as they are
listed, so that for each key the last rule counts. If no key is listed twice, then the order of the
rules makes no difference. -/
theorem defineAll_document (c : Catalog) (d : Document) :
    ((c.defineAll d.orderedRules).isOk = true ↔
      ∀ r ∈ d.rules, r.operation.isWrite = true →
        c.hasRule ⟨r.table, .read⟩ = true ∨ ∃ s ∈ d.rules, s.key = ⟨r.table, .read⟩) ∧
    (∀ c', c.defineAll d.orderedRules = .ok c' → c' = d.rules.foldl insertRule c ∧
      ∀ k, c'.rule? k = (d.rules.reverse.find? fun r => r.key == k).or (c.rule? k)) ∧
    (∀ e, c.defineAll d.orderedRules = .error e ↔
      ∃ r, d.rules.find? (c.lacksRead d.rules) = some r ∧
        e = .missingReadRule r.table r.operation) ∧
    ((d.rules.map Rule.key).Nodup → ∀ d' : Document, d.rules.Perm d'.rules →
      (c.defineAll d'.orderedRules).toOption = (c.defineAll d.orderedRules).toOption) ∧
    d.orderedRules.Perm d.rules ∧
    (∀ write : Bool, (d.orderedRules.filter fun r => r.operation.isWrite == write) =
      d.rules.filter fun r => r.operation.isWrite == write) ∧
    d.orderedRules.Pairwise fun r s => s.operation = .read → r.operation = .read := by
  refine ⟨?_, fun c' h => ?_, fun e => ?_, fun hkeys d' hperm => ?_, d.orderedRules_perm,
    d.filter_orderedRules, d.orderedRules_pairwise⟩
  · have hall : (∀ r ∈ d.rules, r.operation.isWrite = true →
        c.hasRule ⟨r.table, .read⟩ = true ∨ ∃ s ∈ d.rules, s.key = ⟨r.table, .read⟩) ↔
          d.rules.find? (c.lacksRead d.rules) = none := by
      simp only [List.find?_eq_none, lacksRead_eq_true, not_and, not_not]
    rw [hall, defineAll_orderedRules]
    cases d.rules.find? (c.lacksRead d.rules) with
    | none => exact iff_of_true rfl rfl
    | some r => exact iff_of_false nofun nofun
  · rw [defineAll_orderedRules] at h
    split at h
    · cases h
    · obtain rfl := Except.ok.inj h
      exact ⟨rfl, rule?_foldl_insertRule c d.rules⟩
  · rw [defineAll_orderedRules]
    cases d.rules.find? (c.lacksRead d.rules) with
    | none => simp
    | some r => simp [eq_comm]
  · rw [defineAll_orderedRules_toOption, defineAll_orderedRules_toOption,
      any_lacksRead_perm hperm, foldl_insertRule_perm hkeys hperm]

/-- A document with a write before the read of its table and one whose table is read in the catalog,
and the same document backwards. -/
theorem defineAll_notes :
    let c := Catalog.empty.insertRule { table := "users", operation := .read }
    let d : Document := { rules := [{ table := "notes", operation := .create },
      { table := "users", operation := .update }, { table := "notes", operation := .read }] }
    let d' : Document := { rules := d.rules.reverse }
    (d.rules.map Rule.key).Nodup ∧ d.rules.Perm d'.rules ∧
      (c.defineAll d.orderedRules).isOk = true ∧
      (c.defineAll d'.orderedRules).toOption = (c.defineAll d.orderedRules).toOption := by
  intro c d d'
  have hkeys : (d.rules.map Rule.key).Nodup := by decide
  have hperm : d.rules.Perm d'.rules := (List.reverse_perm d.rules).symm
  obtain ⟨hisOk, -, -, horder, -⟩ := defineAll_document c d
  exact ⟨hkeys, hperm, hisOk.mpr (by decide), horder hkeys d' hperm⟩

end Catalog

end RowPolicy
