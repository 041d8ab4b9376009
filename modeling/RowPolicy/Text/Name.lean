/-!
# Names

A plain name is an ASCII letter or underscore followed by ASCII letters, digits and underscores.
Database objects are compared without regard to ASCII case; definitions are compared exactly.
-/

namespace RowPolicy

/-- What a name stands for. -/
inductive NameKind where
  | table
  | column
  | claim
  | property
  deriving DecidableEq, Repr, Inhabited

namespace NameKind

/-- The word used for the kind in messages. -/
def text : NameKind → String
  | .table => "table"
  | .column => "column"
  | .claim => "claim"
  | .property => "property"

def ofText? : String → Option NameKind
  | "table" => some .table
  | "column" => some .column
  | "claim" => some .claim
  | "property" => some .property
  | _ => none

end NameKind

namespace Text

def isNameStart (c : Char) : Bool := c.isAlpha || c == '_'

def isNameChar (c : Char) : Bool := c.isAlphanum || c == '_'

def isPlainNameChars : List Char → Bool
  | [] => false
  | c :: cs => isNameStart c && cs.all isNameChar

def isPlainName (s : String) : Bool := isPlainNameChars s.toList

def foldCase (s : String) : String := String.ofList (s.toList.map Char.toLower)

/-- Whether two names are the same up to ASCII case. -/
def sameName (a b : String) : Bool := foldCase a == foldCase b

end Text

end RowPolicy
