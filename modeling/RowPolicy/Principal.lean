import RowPolicy.Json.Value

/-!
# Principals

The caller on whose behalf data is read or written. An anonymous caller has no id and meets no
condition about identity or membership.
-/

namespace RowPolicy

structure Principal where
  id : Option String
  deriving DecidableEq, Repr, Inhabited

namespace Principal

def user (id : String) : Principal := ⟨some id⟩

def anonymous : Principal := ⟨none⟩

def isAnonymous (p : Principal) : Bool := p.id.isNone

def display (p : Principal) : String := p.id.getD "<anonymous>"

def toJson (p : Principal) : Json :=
  .obj [("id", match p.id with
    | some id => .str id
    | none => .null)]

end Principal

/-- The principal that a connection is bound to while a call runs. -/
structure PrincipalSlot where
  current : Option String := none
  deriving DecidableEq, Repr, Inhabited

namespace PrincipalSlot

def enter (_ : PrincipalSlot) (p : Principal) : PrincipalSlot := ⟨p.id⟩

/-- End any binding: the slot is empty afterwards, also if bindings were nested. -/
def leave (_ : PrincipalSlot) : PrincipalSlot := ⟨none⟩

end PrincipalSlot

end RowPolicy
