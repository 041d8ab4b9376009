import RowPolicy.Operation

/-!
# Names of artifacts

Every artifact has a name made from a common stem, its purpose and its target.
-/

namespace RowPolicy

/-- The stem that the names of all artifacts start with. -/
structure Naming where
  stem : String := "tg_"
  deriving DecidableEq, Repr, Inhabited

namespace Naming

def claimView (n : Naming) (claim : String) : String := n.stem ++ "claim_" ++ claim

def readView (n : Naming) (table : String) : String := n.stem ++ "read_" ++ table

def accessor (n : Naming) (table : String) : String := n.stem ++ "fetch_" ++ table

def guard (n : Naming) (table : String) (operation : Operation) : String :=
  n.stem ++ "guard_" ++ table ++ "_" ++ operation.text

/-- Whether a name starts with the stem, if there is one. -/
def isGenerated (n : Naming) (name : String) : Bool :=
  !n.stem.isEmpty && n.stem.toList.isPrefixOf name.toList

end Naming

end RowPolicy
