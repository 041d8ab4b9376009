import Mathlib.Data.List.Basic
import RowPolicy.Database.Statement
import RowPolicy.Proofs.Outcome

/-!
# Binding of views

What is bound stays bound when more names are known. So a name that is found within some depth of
views is found within any greater one, and no name needs more depth than there are views. A query
without parameters that reads views without parameters does not depend on their values.
-/

namespace RowPolicy

open Sql

/-! ### More names -/

/-- Where the first computation succeeds, the second one yields the same. -/
def Agrees {ε α : Type} (x y : Except ε α) : Prop := ∀ a, x = .ok a → y = .ok a

namespace Agrees

variable {ε α β : Type} {x y : Except ε α}

lemma refl (x : Except ε α) : Agrees x x := fun _ h => h

lemma bind (h : Agrees x y) {f g : α → Except ε β} (hf : ∀ a, Agrees (f a) (g a)) :
    Agrees (x >>= f) (y >>= g) := by
  intro b hb
  obtain ⟨a, ha, hb⟩ := bind_eq_ok.mp hb
  exact bind_eq_ok.mpr ⟨a, h a ha, hf a b hb⟩

end Agrees

namespace Binder

/-- The second binder finds all that the first one does. -/
def Extends (b c : Binder) : Prop :=
  b.hasPrincipal = c.hasPrincipal ∧ ∀ name, Agrees (b.find name) (c.find name)

variable {b c : Binder}

mutual

lemma Extends.expr (h : b.Extends c) (scopes : List Scope) (e : Sql.Expr) :
    Agrees (b.expr scopes e) (c.expr scopes e) := by
  match e with
  | .null | .int _ | .real _ | .text _ | .bytes _ | .param _ =>
    simp only [Binder.expr]
    exact .refl _
  | .column row name quoted =>
    rw [Binder.expr.eq_def, Binder.expr.eq_def]
    exact .refl _
  | .call name args =>
    rw [Binder.expr, Binder.expr, h.1]
    exact .refl _
  | .cast e type | .not e =>
    rw [Binder.expr, Binder.expr]
    exact (h.expr scopes e).bind fun _ => .refl _
  | .compare op l r | .same op l r =>
    rw [Binder.expr, Binder.expr]
    exact (h.expr scopes l).bind fun _ => (h.expr scopes r).bind fun _ => .refl _
  | .inList negated e items =>
    rw [Binder.expr, Binder.expr]
    exact (h.expr scopes e).bind fun _ => (h.exprs scopes items).bind fun _ => .refl _
  | .inQuery negated e q =>
    rw [Binder.expr, Binder.expr]
    exact (h.expr scopes e).bind fun _ => (h.query scopes q).bind fun _ => .refl _
  | .and children | .or children =>
    rw [Binder.expr, Binder.expr]
    exact (h.exprs scopes children).bind fun _ => .refl _

lemma Extends.exprs (h : b.Extends c) (scopes : List Scope) (es : List Sql.Expr) :
    Agrees (b.exprs scopes es) (c.exprs scopes es) := by
  match es with
  | [] =>
    rw [Binder.exprs, Binder.exprs]
    exact .refl _
  | e :: rest =>
    rw [Binder.exprs, Binder.exprs]
    exact (h.expr scopes e).bind fun _ => (h.exprs scopes rest).bind fun _ => .refl _

lemma Extends.valueRows (h : b.Extends c) (scopes : List Scope) (width : Nat)
    (rows : List (List Sql.Expr)) :
    Agrees (b.valueRows scopes width rows) (c.valueRows scopes width rows) := by
  match rows with
  | [] =>
    rw [Binder.valueRows, Binder.valueRows]
    exact .refl _
  | row :: rest =>
    rw [Binder.valueRows, Binder.valueRows]
    exact (h.exprs scopes row).bind fun es => by
      dsimp only
      split
      · exact .refl _
      · exact (h.valueRows scopes width rest).bind fun _ => .refl _

lemma Extends.output (h : b.Extends c) (scopes : List Scope) (o : Sql.Output) :
    Agrees (b.output scopes o) (c.output scopes o) := by
  match o with
  | .all | .allOf _ =>
    rw [Binder.output.eq_def, Binder.output.eq_def]
    exact .refl _
  | .expr e name text =>
    rw [Binder.output, Binder.output]
    exact (h.expr scopes e).bind fun _ => .refl _

lemma Extends.outputs (h : b.Extends c) (scopes : List Scope) (os : List Sql.Output) :
    Agrees (b.outputs scopes os) (c.outputs scopes os) := by
  match os with
  | [] =>
    rw [Binder.outputs, Binder.outputs]
    exact .refl _
  | o :: rest =>
    rw [Binder.outputs, Binder.outputs]
    exact (h.output scopes o).bind fun _ => (h.outputs scopes rest).bind fun _ => .refl _

lemma Extends.source (h : b.Extends c) (s : Sql.Source) :
    Agrees (b.source s) (c.source s) := by
  match s with
  | .unit =>
    rw [Binder.source, Binder.source]
    exact .refl _
  | .named name label =>
    rw [Binder.source, Binder.source]
    exact (h.2 name).bind fun _ => .refl _
  | .query q label =>
    rw [Binder.source, Binder.source]
    exact (h.query [] q).bind fun _ => .refl _

/-- A bound query is bound in the same way when more names are known. -/
lemma Extends.query (h : b.Extends c) (scopes : List Scope) (q : Sql.Query) :
    Agrees (b.query scopes q) (c.query scopes q) := by
  match q with
  | .select distinct columns from' filter =>
    rw [Binder.query, Binder.query]
    exact (h.source from').bind fun _ => (h.outputs _ columns).bind fun _ =>
      (h.expr _ filter).bind fun _ => .refl _
  | .values rows =>
    rw [Binder.query, Binder.query]
    exact (h.valueRows scopes _ rows).bind fun _ => .refl _

end

end Binder

/-! ### Parameters -/

def Yields {ε α : Type} (x : Except ε α) (P : α → Prop) : Prop := ∀ a, x = .ok a → P a

namespace Yields

variable {ε α β : Type} {x : Except ε α} {P : α → Prop} {Q : β → Prop}

lemma ok {a : α} (h : P a) : Yields (.ok a : Except ε α) P := by
  rintro b ⟨⟩
  exact h

lemma error (e : ε) : Yields (.error e : Except ε α) P := fun _ h => nomatch h

lemma bind (h : Yields x P) {f : α → Except ε β} (hf : ∀ a, P a → Yields (f a) Q) :
    Yields (x >>= f) Q := by
  intro b hb
  obtain ⟨a, ha, hb⟩ := bind_eq_ok.mp hb
  exact hf a (h a ha) b hb

end Yields

section

variable (db : Database)

def BoundExpr.IsFixed (e : BoundExpr) : Prop :=
  ∀ p p' caller frames, e.eval db ⟨p, caller⟩ frames = e.eval db ⟨p', caller⟩ frames

def BoundQuery.IsFixed (q : BoundQuery) : Prop :=
  ∀ p p' caller frames, q.rows db ⟨p, caller⟩ frames = q.rows db ⟨p', caller⟩ frames

def BoundSource.IsFixed (s : BoundSource) : Prop :=
  ∀ p p' caller, s.rows db ⟨p, caller⟩ = s.rows db ⟨p', caller⟩

/-- The rows behind every name do not depend on the parameters. -/
def Binder.IsFixed (b : Binder) : Prop :=
  ∀ name, Yields (b.find name) fun found => found.1.IsFixed db

end

section

variable {db : Database} {es : List BoundExpr}

lemma BoundExpr.lists_congr {db' : Database} {env env' : Env} {frames : Frames}
    (h : ∀ e ∈ es, e.eval db env frames = e.eval db' env' frames) :
    evalAll db env frames es = evalAll db' env' frames es ∧
      allTrue db env frames es = allTrue db' env' frames es ∧
      anyTrue db env frames es = anyTrue db' env' frames es := by
  induction es with
  | nil => simp only [evalAll, allTrue, anyTrue, and_self]
  | cons e rest ih =>
    obtain ⟨he, hrest⟩ := List.forall_mem_cons.mp h
    obtain ⟨hvalues, hall, hany⟩ := ih hrest
    simp only [evalAll, allTrue, anyTrue, he, hvalues, hall, hany, and_self]

lemma BoundExpr.evalAll_fixed (h : ∀ e ∈ es, e.IsFixed db) (p p' : List Cell)
    (caller : Option String) (frames : Frames) :
    evalAll db ⟨p, caller⟩ frames es = evalAll db ⟨p', caller⟩ frames es :=
  (lists_congr fun e he => h e he p p' caller frames).1

lemma BoundExpr.evalRows_fixed {rows : List (List BoundExpr)}
    (h : ∀ es ∈ rows, ∀ e ∈ es, e.IsFixed db) (p p' : List Cell)
    (caller : Option String) (frames : Frames) :
    BoundExpr.evalRows db ⟨p, caller⟩ frames rows =
      BoundExpr.evalRows db ⟨p', caller⟩ frames rows := by
  induction rows with
  | nil => rw [BoundExpr.evalRows, BoundExpr.evalRows]
  | cons es rest ih =>
    rw [BoundExpr.evalRows, BoundExpr.evalRows,
      BoundExpr.evalAll_fixed (h es (List.mem_cons_self ..)) p p',
      ih fun x hx => h x (List.mem_cons_of_mem _ hx)]

end

namespace Binder

variable {db : Database} {b : Binder}

lemma lookup?_fixed {row : Option String} {name : String} {depth : Nat} {scopes : List Scope}
    {found : BoundExpr × Heading} (h : lookup? row name depth scopes = some found) :
    found.1.IsFixed db := by
  induction scopes generalizing depth with
  | nil => cases h
  | cons s outer ih =>
    rw [lookup?.eq_def] at h
    dsimp only at h
    split at h
    · cases h
      intro p p' caller frames
      rw [BoundExpr.eval, BoundExpr.eval]
    · exact ih h

lemma looseName_fixed (name : String) (quoted : Bool) :
    Yields (looseName name quoted) fun e => e.IsFixed db := by
  have hconst : ∀ c, (BoundExpr.const c).IsFixed db := fun c p p' caller frames => by
    rw [BoundExpr.eval, BoundExpr.eval]
  unfold looseName
  split
  · exact .ok (hconst _)
  · split
    · exact .ok (hconst _)
    · exact .ok (hconst _)
    · exact .error _

lemma allColumns_fixed {s : Scope} {o : Shown} (h : o ∈ allColumns s) : o.expr.IsFixed db := by
  obtain ⟨⟨c, i⟩, -, rfl⟩ := List.mem_map.mp h
  intro p p' caller frames
  rw [BoundExpr.eval, BoundExpr.eval]

mutual

lemma IsFixed.expr (hb : b.IsFixed db) (scopes : List Scope) {e : Sql.Expr}
    (hp : e.params = 0) : Yields (b.expr scopes e) fun found => found.1.IsFixed db := by
  match e with
  | .null | .int _ | .real _ | .text _ | .bytes _ =>
    rw [Binder.expr]
    refine .ok fun p p' caller frames => ?_
    rw [BoundExpr.eval, BoundExpr.eval]
  | .param i =>
    rw [Sql.Expr.params] at hp
    cases hp
  | .column row name quoted =>
    rw [Binder.expr.eq_def]
    dsimp only
    split
    · rename_i hfound
      exact .ok (lookup?_fixed hfound)
    · exact .error _
    · -- A name that no scope has can only stand for a text.
      intro found h
      obtain ⟨x, hx, rfl⟩ := map_eq_ok.mp h
      exact looseName_fixed name quoted x hx
  | .call name args =>
    rw [Binder.expr]
    split
    · refine .ok fun p p' caller frames => ?_
      rw [BoundExpr.eval, BoundExpr.eval]
    · exact .error _
  | .cast e type =>
    rw [Sql.Expr.params] at hp
    rw [Binder.expr]
    refine (hb.expr scopes hp).bind fun ⟨x, _⟩ hx => ?_
    dsimp only
    split
    · refine .ok fun p p' caller frames => ?_
      rw [BoundExpr.eval, BoundExpr.eval, hx p p']
    · exact .error _
  | .not e =>
    rw [Sql.Expr.params] at hp
    rw [Binder.expr]
    refine (hb.expr scopes hp).bind fun ⟨x, _⟩ hx => .ok fun p p' caller frames => ?_
    rw [BoundExpr.eval, BoundExpr.eval, hx p p']
  | .compare op l r | .same op l r =>
    rw [Sql.Expr.params, Nat.max_eq_zero_iff] at hp
    rw [Binder.expr]
    refine (hb.expr scopes hp.1).bind fun ⟨x, _⟩ hx => (hb.expr scopes hp.2).bind fun ⟨y, _⟩ hy =>
      .ok fun p p' caller frames => ?_
    rw [BoundExpr.eval, BoundExpr.eval, hx p p', hy p p']
  | .inList negated e items =>
    rw [Sql.Expr.params, Nat.max_eq_zero_iff] at hp
    rw [Binder.expr]
    refine (hb.expr scopes hp.1).bind fun ⟨x, _⟩ hx => (hb.exprs scopes hp.2).bind fun ys hys =>
      .ok fun p p' caller frames => ?_
    rw [BoundExpr.eval, BoundExpr.eval, hx p p', BoundExpr.evalAll_fixed hys p p']
  | .inQuery negated e q =>
    rw [Sql.Expr.params, Nat.max_eq_zero_iff] at hp
    rw [Binder.expr]
    refine (hb.expr scopes hp.1).bind fun ⟨x, _⟩ hx =>
      (hb.query scopes hp.2).bind fun ⟨rows, headings⟩ hrows => ?_
    dsimp only
    split
    · refine .ok fun p p' caller frames => ?_
      rw [BoundExpr.eval, BoundExpr.eval, hx p p', hrows p p']
    · exact .error _
  | .and children =>
    rw [Sql.Expr.params] at hp
    rw [Binder.expr]
    refine (hb.exprs scopes hp).bind fun xs hxs => .ok fun p p' caller frames => ?_
    rw [BoundExpr.eval, BoundExpr.eval,
      (BoundExpr.lists_congr fun e he => hxs e he p p' caller frames).2.1]
  | .or children =>
    rw [Sql.Expr.params] at hp
    rw [Binder.expr]
    refine (hb.exprs scopes hp).bind fun xs hxs => .ok fun p p' caller frames => ?_
    rw [BoundExpr.eval, BoundExpr.eval,
      (BoundExpr.lists_congr fun e he => hxs e he p p' caller frames).2.2]

lemma IsFixed.exprs (hb : b.IsFixed db) (scopes : List Scope) {es : List Sql.Expr}
    (hp : Expr.paramsAll es = 0) :
    Yields (b.exprs scopes es) fun found => ∀ e ∈ found, e.IsFixed db := by
  match es with
  | [] =>
    rw [Binder.exprs]
    exact .ok (by simp)
  | e :: rest =>
    rw [Sql.Expr.paramsAll, Nat.max_eq_zero_iff] at hp
    rw [Binder.exprs]
    exact (hb.expr scopes hp.1).bind fun _ hx => (hb.exprs scopes hp.2).bind fun _ hxs =>
      .ok (List.forall_mem_cons.mpr ⟨hx, hxs⟩)

lemma IsFixed.valueRows (hb : b.IsFixed db) (scopes : List Scope) (width : Nat)
    {rows : List (List Sql.Expr)} (hp : Expr.paramsRows rows = 0) :
    Yields (b.valueRows scopes width rows) fun found => ∀ es ∈ found, ∀ e ∈ es, e.IsFixed db := by
  match rows with
  | [] =>
    rw [Binder.valueRows]
    exact .ok (by simp)
  | row :: rest =>
    rw [Sql.Expr.paramsRows, Nat.max_eq_zero_iff] at hp
    rw [Binder.valueRows]
    refine (hb.exprs scopes hp.1).bind fun xs hxs => ?_
    dsimp only
    split
    · exact .error _
    · exact (hb.valueRows scopes width hp.2).bind fun _ hrows =>
        .ok (List.forall_mem_cons.mpr ⟨hxs, hrows⟩)

lemma IsFixed.output (hb : b.IsFixed db) (scopes : List Scope) {o : Sql.Output}
    (hp : o.params = 0) :
    Yields (b.output scopes o) fun found => ∀ x ∈ found, x.expr.IsFixed db := by
  match o with
  | .all =>
    rw [Binder.output.eq_def]
    dsimp only
    split
    · split
      · exact .error _
      · exact .ok fun _ => allColumns_fixed
    · exact .error _
  | .allOf row =>
    rw [Binder.output.eq_def]
    dsimp only
    split
    · split
      · exact .ok fun _ => allColumns_fixed
      · exact .error _
    · exact .error _
  | .expr e name text =>
    rw [Sql.Output.params] at hp
    rw [Binder.output]
    exact (hb.expr scopes hp).bind fun ⟨x, _⟩ hx => .ok (by simpa using hx)

lemma IsFixed.outputs (hb : b.IsFixed db) (scopes : List Scope) {os : List Sql.Output}
    (hp : Output.paramsAll os = 0) :
    Yields (b.outputs scopes os) fun found => ∀ x ∈ found, x.expr.IsFixed db := by
  match os with
  | [] =>
    rw [Binder.outputs]
    exact .ok (by simp)
  | o :: rest =>
    rw [Sql.Output.paramsAll, Nat.max_eq_zero_iff] at hp
    rw [Binder.outputs]
    exact (hb.output scopes hp.1).bind fun _ hx => (hb.outputs scopes hp.2).bind fun _ hxs =>
      .ok (List.forall_mem_append.mpr ⟨hx, hxs⟩)

lemma IsFixed.source (hb : b.IsFixed db) {s : Sql.Source} (hp : s.params = 0) :
    Yields (b.source s) fun found => found.1.IsFixed db := by
  match s with
  | .unit =>
    rw [Binder.source]
    refine .ok fun p p' caller => ?_
    rw [BoundSource.rows, BoundSource.rows]
  | .named name label =>
    rw [Binder.source]
    exact (hb name).bind fun _ hrows => .ok hrows
  | .query q label =>
    rw [Sql.Source.params] at hp
    rw [Binder.source]
    refine (hb.query [] hp).bind fun _ hrows => .ok fun p p' caller => ?_
    rw [BoundSource.rows, BoundSource.rows, hrows p p']

/-- A query without parameters over sources without parameters yields the same whatever the
parameters are. -/
lemma IsFixed.query (hb : b.IsFixed db) (scopes : List Scope) {q : Sql.Query}
    (hp : q.params = 0) : Yields (b.query scopes q) fun found => found.1.IsFixed db := by
  match q with
  | .select distinct columns from' filter =>
    simp only [Sql.Query.params, Nat.max_eq_zero_iff] at hp
    rw [Binder.query]
    refine (hb.source hp.2.1).bind fun ⟨rows, scope⟩ hrows =>
      (hb.outputs _ hp.1).bind fun shown hshown =>
      (hb.expr _ hp.2.2).bind fun ⟨f, _⟩ hf => .ok fun p p' caller frames => ?_
    have hshown' : ∀ e ∈ shown.map Shown.expr, e.IsFixed db := List.forall_mem_map.mpr hshown
    rw [BoundQuery.rows, BoundQuery.rows, hrows p p']
    simp only [hf p p', BoundExpr.evalAll_fixed hshown' p p']
  | .values rows =>
    rw [Sql.Query.params] at hp
    rw [Binder.query]
    refine (hb.valueRows scopes _ hp).bind fun _ hrows => .ok fun p p' caller frames => ?_
    rw [BoundQuery.rows, BoundQuery.rows, BoundExpr.evalRows_fixed hrows p p']

end

end Binder

/-! ### Names of objects -/

namespace Text

lemma sameName_self (s : String) : sameName s s = true := by simp [sameName]

lemma sameName_congr {a b : String} (h : sameName a b = true) (s : String) :
    sameName s a = sameName s b := by
  rw [sameName, sameName, eq_of_beq h]

end Text

namespace Database

variable {db : Database} {a b : String} {v : View} {fuel : Nat}
  {found : BoundSource × List Heading × Bool}

lemma table?_congr (h : Text.sameName a b = true) : db.table? a = db.table? b := by
  simp only [table?, Text.sameName_congr h]

lemma view?_congr (h : Text.sameName a b = true) : db.view? a = db.view? b := by
  simp only [view?, Text.sameName_congr h]

lemma sourceAt_congr (h : Text.sameName a b = true) (hasPrincipal : Bool) (fuel : Nat) :
    db.sourceAt hasPrincipal fuel a = db.sourceAt hasPrincipal fuel b := by
  rw [sourceAt.eq_def, sourceAt.eq_def]
  dsimp only
  rw [table?_congr h, view?_congr h]

lemma sameName_of_table? {t : Table} (h : db.table? a = some t) :
    Text.sameName t.name a = true := by
  have hname := List.find?_some h
  exact hname

lemma sameName_of_view? (h : db.view? a = some v) :
    Text.sameName v.name a = true := by
  have hname := List.find?_some h
  exact hname

/-! ### Depth of views -/

variable {hasPrincipal : Bool}

lemma sourceAt_table {t : Table} (h : db.table? a = some t) (fuel : Nat) :
    db.sourceAt hasPrincipal fuel a = .ok (.table t.name, tableHeadings t, !t.withoutRowId) := by
  rw [sourceAt.eq_def]
  dsimp only
  rw [h]

lemma sourceAt_view (ht : db.table? a = none) (hv : db.view? a = some v) (fuel : Nat) :
    db.sourceAt hasPrincipal (fuel + 1) a =
      (Binder.query ⟨db.sourceAt hasPrincipal fuel, hasPrincipal⟩ [] v.query).map fun found =>
        (.query found.1, Binder.distinctNames [] found.2, false) := by
  rw [sourceAt.eq_def]
  dsimp only
  rw [ht, hv]
  dsimp only
  cases Binder.query ⟨db.sourceAt hasPrincipal fuel, hasPrincipal⟩ [] v.query <;> rfl

lemma sourceAt_cases (h : db.sourceAt hasPrincipal fuel a = .ok found) :
    (∃ t, db.table? a = some t) ∨
      ∃ v k, db.table? a = none ∧ db.view? a = some v ∧ fuel = k + 1 := by
  cases ht : db.table? a with
  | some t => exact .inl ⟨t, rfl⟩
  | none =>
    rw [sourceAt.eq_def] at h
    dsimp only at h
    rw [ht] at h
    cases hv : db.view? a with
    | none =>
      rw [hv] at h
      cases h
    | some v =>
      cases fuel with
      | zero =>
        rw [hv] at h
        cases h
      | succ k => exact .inr ⟨v, k, rfl, rfl, rfl⟩

lemma sourceAt_view_agrees {j k : Nat} (ht : db.table? a = none) (hv : db.view? a = some v)
    (h : ∀ name, Agrees (db.sourceAt hasPrincipal j name) (db.sourceAt hasPrincipal k name)) :
    Agrees (db.sourceAt hasPrincipal (j + 1) a) (db.sourceAt hasPrincipal (k + 1) a) := by
  intro found hfound
  rw [sourceAt_view ht hv] at hfound ⊢
  obtain ⟨bound, hbound, rfl⟩ := map_eq_ok.mp hfound
  have hextends : Binder.Extends ⟨db.sourceAt hasPrincipal j, hasPrincipal⟩
      ⟨db.sourceAt hasPrincipal k, hasPrincipal⟩ := ⟨rfl, h⟩
  exact map_eq_ok.mpr ⟨bound, hextends.query [] v.query bound hbound, rfl⟩

lemma sourceAt_succ (fuel : Nat) (name : String) :
    Agrees (db.sourceAt hasPrincipal fuel name) (db.sourceAt hasPrincipal (fuel + 1) name) := by
  induction fuel generalizing name with
  | zero =>
    intro found h
    rcases sourceAt_cases h with ⟨t, ht⟩ | ⟨v, k, -, -, hk⟩
    · rwa [sourceAt_table ht] at h ⊢
    · cases hk
  | succ fuel ih =>
    intro found h
    rcases sourceAt_cases h with ⟨t, ht⟩ | ⟨v, k, ht, hv, -⟩
    · rwa [sourceAt_table ht] at h ⊢
    · exact sourceAt_view_agrees ht hv ih found h

lemma sourceAt_mono {j k : Nat} (h : j ≤ k) (name : String) :
    Agrees (db.sourceAt hasPrincipal j name) (db.sourceAt hasPrincipal k name) := by
  induction h with
  | refl => exact .refl _
  | step _ ih => exact fun found hfound => sourceAt_succ _ name found (ih found hfound)

/-- One more level of views finds nothing new. -/
def IsSaturated (db : Database) (hasPrincipal : Bool) (fuel : Nat) : Prop :=
  ∀ name, Agrees (db.sourceAt hasPrincipal (fuel + 1) name) (db.sourceAt hasPrincipal fuel name)

lemma IsSaturated.succ (h : db.IsSaturated hasPrincipal fuel) :
    db.IsSaturated hasPrincipal (fuel + 1) := by
  intro name found hfound
  rcases sourceAt_cases hfound with ⟨t, ht⟩ | ⟨v, k, ht, hv, -⟩
  · rwa [sourceAt_table ht] at hfound ⊢
  · exact sourceAt_view_agrees ht hv h found hfound

lemma IsSaturated.mono {j k : Nat} (hjk : j ≤ k) (h : db.IsSaturated hasPrincipal j) :
    db.IsSaturated hasPrincipal k := by
  induction hjk with
  | refl => exact h
  | step _ ih => exact ih.succ

/-- The number of views that are found within a depth. -/
def foundViews (db : Database) (hasPrincipal : Bool) (fuel : Nat) : Nat :=
  db.views.countP fun v => (db.sourceAt hasPrincipal fuel v.name).isOk

lemma foundViews_le (db : Database) (hasPrincipal : Bool) (fuel : Nat) :
    db.foundViews hasPrincipal fuel ≤ db.foundViews hasPrincipal (fuel + 1) := by
  refine List.countP_mono_left fun v _ h => ?_
  obtain ⟨found, hfound⟩ := isOk_iff.mp h
  exact isOk_iff.mpr ⟨found, sourceAt_succ fuel v.name found hfound⟩

/-- If the next level finds no more views, it finds nothing new. -/
lemma isSaturated_of_foundViews
    (h : db.foundViews hasPrincipal (fuel + 1) = db.foundViews hasPrincipal fuel) :
    db.IsSaturated hasPrincipal fuel := by
  have hsub : (db.views.filter fun v => (db.sourceAt hasPrincipal fuel v.name).isOk).Sublist
      (db.views.filter fun v => (db.sourceAt hasPrincipal (fuel + 1) v.name).isOk) := by
    refine List.monotone_filter_right _ fun v hv => ?_
    obtain ⟨found, hfound⟩ := isOk_iff.mp hv
    exact isOk_iff.mpr ⟨found, sourceAt_succ fuel v.name found hfound⟩
  rw [foundViews, foundViews, List.countP_eq_length_filter, List.countP_eq_length_filter] at h
  have hviews := hsub.eq_of_length h.symm
  intro name found hfound
  rcases sourceAt_cases hfound with ⟨t, ht⟩ | ⟨v, k, ht, hv, -⟩
  · rwa [sourceAt_table ht] at hfound ⊢
  · have hname := sameName_of_view? hv
    have hmem : v ∈ db.views.filter fun v => (db.sourceAt hasPrincipal fuel v.name).isOk := by
      rw [hviews, List.mem_filter]
      refine ⟨List.mem_of_find?_eq_some hv, isOk_iff.mpr ⟨found, ?_⟩⟩
      rwa [sourceAt_congr hname]
    -- The view is found at the lower level already, and the higher one only repeats that.
    obtain ⟨found', hfound'⟩ := isOk_iff.mp (List.mem_filter.mp hmem).2
    rw [sourceAt_congr hname] at hfound'
    have hsame := sourceAt_succ fuel name found' hfound'
    rw [hfound] at hsame
    rwa [Except.ok.inj hsame]

lemma le_foundViews (h : ∀ k < fuel, ¬db.IsSaturated hasPrincipal k) :
    fuel ≤ db.foundViews hasPrincipal fuel := by
  induction fuel with
  | zero => exact Nat.zero_le _
  | succ fuel ih =>
    have hle := ih fun k hk => h k (Nat.lt_succ_of_lt hk)
    have hstep := foundViews_le db hasPrincipal fuel
    have hne : db.foundViews hasPrincipal (fuel + 1) ≠ db.foundViews hasPrincipal fuel :=
      fun heq => h fuel (Nat.lt_succ_self fuel) (isSaturated_of_foundViews heq)
    omega

/-- As many levels as there are views are enough. -/
lemma isSaturated_length (db : Database) (hasPrincipal : Bool) :
    db.IsSaturated hasPrincipal db.views.length := by
  by_contra hnot
  have hle : db.views.length + 1 ≤ db.foundViews hasPrincipal (db.views.length + 1) :=
    le_foundViews fun k hk hk' => hnot (hk'.mono (Nat.le_of_lt_succ hk))
  have hlength : db.foundViews hasPrincipal (db.views.length + 1) ≤ db.views.length :=
    List.countP_le_length
  omega

/-! ### The binder of a database -/

lemma find_congr (h : Text.sameName a b = true) :
    (db.binder hasPrincipal).find a = (db.binder hasPrincipal).find b :=
  sourceAt_congr h hasPrincipal db.views.length

lemma find_table {t : Table} (h : db.table? a = some t) :
    (db.binder hasPrincipal).find a = .ok (.table t.name, tableHeadings t, !t.withoutRowId) :=
  sourceAt_table h db.views.length

lemma find_view_eq_ok (ht : db.table? a = none) (hv : db.view? a = some v) :
    (db.binder hasPrincipal).find a = .ok found ↔
      ∃ bound, (db.binder hasPrincipal).query [] v.query = .ok bound ∧
        (.query bound.1, Binder.distinctNames [] bound.2, false) = found := by
  constructor
  · intro h
    rcases sourceAt_cases h with ⟨t, ht'⟩ | ⟨v', k, -, -, hk⟩
    · rw [ht] at ht'
      cases ht'
    · change db.sourceAt hasPrincipal db.views.length a = _ at h
      rw [hk, sourceAt_view ht hv] at h
      obtain ⟨bound, hbound, hfound⟩ := map_eq_ok.mp h
      have hextends : Binder.Extends ⟨db.sourceAt hasPrincipal k, hasPrincipal⟩
          (db.binder hasPrincipal) := ⟨rfl, fun name => sourceAt_mono (by omega) name⟩
      exact ⟨bound, hextends.query [] v.query bound hbound, hfound⟩
  · rintro ⟨bound, hbound, rfl⟩
    refine isSaturated_length db hasPrincipal a _ ?_
    rw [sourceAt_view ht hv]
    exact map_eq_ok.mpr ⟨bound, hbound, rfl⟩

/-- The rows behind every name do not depend on the parameters if no view has any. -/
lemma binder_isFixed (h : ∀ v ∈ db.views, v.query.params = 0) :
    (db.binder hasPrincipal).IsFixed db := by
  suffices hfuel : ∀ fuel, Binder.IsFixed db ⟨db.sourceAt hasPrincipal fuel, hasPrincipal⟩ from
    hfuel db.views.length
  intro fuel
  induction fuel with
  | zero =>
    intro name found hfound
    rcases sourceAt_cases hfound with ⟨t, ht⟩ | ⟨v, k, -, -, hk⟩
    · change db.sourceAt hasPrincipal 0 name = _ at hfound
      rw [sourceAt_table ht] at hfound
      cases hfound
      intro p p' caller
      rw [BoundSource.rows, BoundSource.rows]
    · cases hk
  | succ fuel ih =>
    intro name found hfound
    change db.sourceAt hasPrincipal (fuel + 1) name = _ at hfound
    rcases sourceAt_cases hfound with ⟨t, ht⟩ | ⟨v, k, ht, hv, -⟩
    · rw [sourceAt_table ht] at hfound
      cases hfound
      intro p p' caller
      rw [BoundSource.rows, BoundSource.rows]
    · -- A view is one level deeper than what it reads.
      rw [sourceAt_view ht hv] at hfound
      obtain ⟨bound, hbound, rfl⟩ := map_eq_ok.mp hfound
      have hrows := ih.query [] (h v (List.mem_of_find?_eq_some hv)) bound hbound
      intro p p' caller
      rw [BoundSource.rows, BoundSource.rows, hrows p p']

end Database

end RowPolicy
