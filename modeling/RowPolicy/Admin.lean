import RowPolicy.Admin.Install
import RowPolicy.Document.Basic

/-!
# Administration

Rules and claims are defined, dropped and regenerated. Each call works on the database as a whole:
it loads the catalog, checks and installs, and stores the definition. A call that fails changes
nothing.
-/

namespace RowPolicy.Admin

/-- The catalog of the live tables and the stored definitions. -/
def loadCatalog (n : Naming) (db : Database) : Result Catalog := do
  let claims ← ofStore (Store.claims db)
  let rules ← ofStore (Store.rules db)
  let c := claims.foldl (fun c k => c.insertClaim k.body) (db.catalog n)
  pure (rules.foldl (fun c r => c.insertRule r.body) c)

def issue (s : Setting) (w : Work) : Work × Uuid :=
  ({ w with issued := w.issued + 1 }, s.ids w.issued)

/-- The record of a definition: a new one, or the existing one redefined. -/
def recordOf {α : Type} (s : Setting) (w : Work) (existing : Option (Stamped α)) (body : α) :
    Work × Stamped α :=
  match existing with
  | some old => (w, old.redefine s.now body)
  | none =>
    let (w, id) := issue s w
    (w, .fresh id s.now body)

/-! ### Steps -/

def defineRule (s : Setting) (w : Work) (r : Rule) : Result (Work × Summary) := do
  ofChecked r.validate
  ofChecked (w.catalog.checkDefine r)
  let existing ← ofStore (Store.rule w.db r.key)
  let (w, record) := recordOf s w existing r
  let (w, summary) ← installRule s w record
  let db ← ofStore (Store.saveRule w.db record)
  pure ({ w with db := db, catalog := w.catalog.insertRule r }, summary)

/-- Compile a rule again and add what was done to a summary. -/
def recompile (s : Setting) (acc : Work × Summary) (k : RuleKey) : Result (Work × Summary) := do
  let (w, summary) := acc
  let stored ← ofStore (Store.rule w.db k)
  match stored with
  | none => pure (w, summary)
  | some r =>
    let (w, again) ← installRule s w r
    pure (w, { summary with
      artifacts := summary.artifacts ++ again.artifacts
      fallbacks := summary.fallbacks ++ again.fallbacks
      recompiled := summary.recompiled ++ [k] })

/-- Create or replace a claim; the rules that refer to it are compiled again. -/
def defineClaim (s : Setting) (w : Work) (c : Claim) : Result (Work × Summary) := do
  let existing ← ofStore (Store.claim w.db c.name)
  let (w, record) := recordOf s w existing c
  let (w, summary) ← installClaim s w record
  let db ← ofStore (Store.saveClaim w.db record)
  let w := { w with db := db, catalog := w.catalog.insertClaim c }
  ((w.catalog.rulesReferencing c.name).map Rule.key).foldlM (recompile s) (w, summary)

def dropRule (w : Work) (k : RuleKey) : Result (Work × Nat) := do
  let stored ← ofStore (Store.rule w.db k)
  match stored with
  | none => pure (w, 0)
  | some r =>
    ofChecked (w.catalog.checkDropRule k)
    let (db, removed) ← teardown w.db r.id
    let (db, _) ← ofStore (Store.deleteRule db k)
    pure ({ w with db := db, catalog := w.catalog.removeRule k }, removed)

/-- Drop all rules of a table, the read rule last. -/
def dropRules (w : Work) (table : String) : Result (Work × Nat) := do
  let stored ← ofStore (Store.rulesFor w.db table)
  stored.reverse.foldlM (fun (w, removed) r => do
    let (w, n) ← dropRule w ⟨table, r.body.operation⟩
    pure (w, removed + n)) (w, 0)

def dropClaim (w : Work) (name : String) : Result (Work × Nat) := do
  let stored ← ofStore (Store.claim w.db name)
  match stored with
  | none => pure (w, 0)
  | some c =>
    ofChecked (w.catalog.checkDropClaim name)
    let (db, removed) ← teardown w.db c.id
    let (db, _) ← ofStore (Store.deleteClaim db name)
    pure ({ w with db := db, catalog := w.catalog.removeClaim name }, removed)

def summarize {α : Type} (step : Work → α → Result (Work × Summary)) (w : Work) (items : List α) :
    Result (Work × List Summary) :=
  items.foldlM (fun (w, summaries) a => do
    let (w, summary) ← step w a
    pure (w, summaries ++ [summary])) (w, [])

/-- Rules with reads first, then by table. -/
def installOrder (rs : List RuleRecord) : List RuleRecord :=
  Text.sortByKey
    (fun (a b : Nat × String) => a.1 < b.1 || (a.1 == b.1 && a.2 < b.2))
    (fun r : RuleRecord => (r.body.operation.rank, r.body.table)) rs

def rebuild (s : Setting) (w : Work) : Result (Work × List Summary) := do
  let existing ← ofStore (Store.artifacts w.db)
  let db ← removeAll w.db existing
  let claims ← ofStore (Store.claims db)
  let (w, first) ← summarize (installClaim s) { w with db := db } claims
  let rules ← ofStore (Store.rules w.db)
  let (w, second) ← summarize (installRule s) w (installOrder rules)
  pure (w, first ++ second)

/-- Define the claims and then the rules of a document. -/
def applyDocument (s : Setting) (w : Work) (d : Document) : Result (Work × List Summary) := do
  let (w, first) ← summarize (defineClaim s) w d.claims
  let (w, second) ← summarize (defineRule s) w d.orderedRules
  pure (w, first ++ second)

/-! ### Calls -/

/-- Prepare a database for administration; another connection must not be writing if tables have
to be created. -/
def start (busy : Bool) (db : Database) : Database × Result Unit :=
  if busy && !Store.isMigrated db then (db, .error (.store (.storage .busy)))
  else
    let (db, r) := Store.migrate db
    (db, ofStore r)

/-- A call: the steps run on a loaded catalog, and their database replaces the old one. -/
def transaction {α : Type} (n : Naming) (busy : Bool) (db : Database) (issued : Nat)
    (steps : Work → Result (Work × α)) : Result (Database × Nat × α) := do
  if busy then throw (.store (.storage .busy))
  let catalog ← loadCatalog n db
  let (w, a) ← steps ⟨db, catalog, issued⟩
  pure (w.db, w.issued, a)

end RowPolicy.Admin
