import RowPolicy.Database.Error
import RowPolicy.Operation

/-!
# Access errors

Why a caller's request fails. Denials do not tell whether the row asked for exists.
-/

namespace RowPolicy

/-- Why the stored policy cannot be used. -/
inductive StoreError where
  | storage (e : StorageError)
  | unreadable (e : DecodeError)
  deriving Inhabited

/-- Why a request fails. -/
inductive AccessError where
  | unauthorized (table condition reason : String)
  | notFound (table : String)
  | denied (table : String) (operation : Operation)
  | accessorUnavailable (table : String)
  | missingParameter (table column : String)
  | unknownColumn (table column : String)
  | unsupportedValue (column : String)
  | nothingToUpdate (table : String)
  | store (e : StoreError)
  deriving Inhabited

namespace AccessError

/-- The text of an access error; a failing store has none of its own. -/
def message? : AccessError → Option String
  | .unauthorized table condition reason =>
    some ("not authorized on '" ++ table ++ "': '" ++ condition ++ "' " ++ reason)
  | .notFound table => some ("no matching row in '" ++ table ++ "'")
  | .denied table operation =>
    some ("no " ++ operation.text ++ " rule grants access to '" ++ table ++ "'")
  | .accessorUnavailable table =>
    some ("validating accessor for '" ++ table ++ "' is unavailable: the read rule cannot be "
      ++ "checked one condition at a time; use scoped_read")
  | .missingParameter table column =>
    some ("missing parameter '" ++ column ++ "' for '" ++ table ++ "'")
  | .unknownColumn table column =>
    some ("unknown column '" ++ column ++ "' on '" ++ table ++ "'")
  | .unsupportedValue column =>
    some ("unsupported value for '" ++ column
      ++ "': arrays and objects cannot be stored in a column")
  | .nothingToUpdate table => some ("update of '" ++ table ++ "' changes no columns")
  | .store _ => none

/-- Whether the request is refused, rather than wrong or failing. -/
def isDenial : AccessError → Bool
  | .unauthorized _ _ _ => true
  | .notFound _ => true
  | .denied _ _ => true
  | _ => false

end AccessError

end RowPolicy
