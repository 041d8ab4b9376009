import RowPolicy.Admin.Summary
import RowPolicy.Schema

/-!
# Installation of artifacts

A definition is compiled against the catalog and rendered; what was installed for it before is
removed, its views are created, and its artifacts are registered. A view must be readable when it
is created, so that a broken claim query fails here and not on the first access.
-/

namespace RowPolicy.Admin

abbrev Result := Except AdminError

def ofStore {α : Type} (r : Store.Stored α) : Result α := r.mapError .store

def ofChecked {α : Type} (r : Checked α) : Result α := r.mapError .definition

def installing {α : Type} (identifier : String) (r : Bound α) : Result α :=
  r.mapError (.install identifier)

/-- What is the same for all steps of a call: the names of artifacts, the identifiers to give out
and the time. -/
structure Setting where
  naming : Naming
  ids : Nat → Uuid
  now : Instant
  deriving Inhabited

structure Work where
  db : Database
  catalog : Catalog
  /-- The number of identifiers given out. -/
  issued : Nat := 0
  deriving Inhabited

/-! ### Views -/

/-- Create a view in place of one with the same name. -/
def installView (db : Database) (identifier createSql : String) : Result Database := do
  let (db, _) ← installing identifier (db.execute {} (Sql.dropView identifier))
  let (db, _) ← installing identifier (db.execute {} createSql)
  let _ ← installing identifier (db.prepare true (Sql.selectAll identifier))
  pure db

def remove (db : Database) (a : ArtifactRecord) : Result Database := do
  let db ← if a.kind.isView then do
      let (db, _) ← ofStore (Store.ofStorage (db.execute {} (Sql.dropView a.identifier)))
      pure db
    else pure db
  let (db, _) ← ofStore (Store.deleteArtifact db a.identifier)
  pure db

def removeAll (db : Database) (artifacts : List ArtifactRecord) : Result Database :=
  artifacts.foldlM remove db

/-- Remove all artifacts of a definition; how many there were. -/
def teardown (db : Database) (owner : Uuid) : Result (Database × Nat) := do
  let existing ← ofStore (Store.artifactsOf db owner)
  let db ← removeAll db existing
  pure (db, existing.length)

def install (db : Database) (a : ArtifactRecord) : Result Database := do
  let db ← match a.body with
    | .view createSql => installView db a.identifier createSql
    | _ => pure db
  ofStore (Store.saveArtifact db a)

/-- Install artifacts in place of those that a definition had; how many it had. -/
def replace (db : Database) (owner : Uuid) (artifacts : List ArtifactRecord) :
    Result (Database × Nat) := do
  let (db, removed) ← teardown db owner
  let db ← artifacts.foldlM install db
  pure (db, removed)

/-! ### Claim queries -/

/-- A query that cannot be the source of a claim. -/
def malformed (cause : Malformation) : AdminError := .definition (.malformed cause)

/-- The source of a claim must be one statement that reads and yields columns. -/
def checkClaimQuery (db : Database) (identifier sql : String) : Result Unit :=
  match Sql.parse sql with
  | .error => .error (.install identifier .invalid)
  | .none => .error (malformed (.noStatement identifier))
  | .one s rest => do
    let p ← installing identifier (db.prepareStatement true sql s)
    if !p.isSelection then throw (malformed (.notSelect identifier))
    match Sql.parseFirst sql.toList rest with
    | .none => pure ()
    | .error => throw (.install identifier .invalid)
    | .one second _ =>
      let _ ← installing identifier (db.prepareStatement true sql second)
      throw (malformed (.manyStatements identifier))

/-! ### Definitions -/

def installRule (s : Setting) (w : Work) (r : RuleRecord) : Result (Work × Summary) := do
  let compiled ← ofChecked (w.catalog.compileRule r.body)
  let artifacts := (s.naming.renderRule compiled).map (ArtifactRecord.ofRendered r.id s.now)
  let (db, removed) ← replace w.db r.id artifacts
  pure ({ w with db := db },
    { owner := r.id, subject := r.body.key.text, artifacts := artifacts, removed := removed,
      fallbacks := compiled.fallbacks })

def installClaim (s : Setting) (w : Work) (c : ClaimRecord) : Result (Work × Summary) := do
  ofChecked (w.catalog.compileClaim c.body)
  match c.body.source with
  | .query sql => checkClaimQuery w.db (s.naming.claimView c.body.name) sql
  | .table _ => pure ()
  let a := ArtifactRecord.ofRendered c.id s.now (s.naming.renderClaim c.body)
  let (db, removed) ← replace w.db c.id [a]
  pure ({ w with db := db },
    { owner := c.id, subject := "claim " ++ c.body.name, artifacts := [a], removed := removed })

end RowPolicy.Admin
