import RowPolicy.Database.Table

/-!
# Shared databases

A database with a write lock. The connection that holds the lock works on a copy that nobody else
sees until it is given up; the others can read and not write.
-/

namespace RowPolicy

/-- A database and what the holder of the write lock has made of it. -/
structure Shared where
  committed : Database
  pending : Option Database := none
  deriving Inhabited

namespace Shared

def isLocked (s : Shared) : Bool := s.pending.isSome

def own (s : Shared) : Database := s.pending.getD s.committed

def setOwn (s : Shared) (db : Database) : Shared :=
  match s.pending with
  | some _ => { s with pending := some db }
  | none => { s with committed := db }

def lock (s : Shared) : Except StorageError Shared :=
  if s.isLocked then .error .invalid else .ok { s with pending := some s.committed }

/-- Give up the write lock and what was written under it. -/
def unlock (s : Shared) : Except StorageError Shared :=
  if s.isLocked then .ok { s with pending := none } else .error .invalid

end Shared

end RowPolicy
