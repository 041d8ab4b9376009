import RowPolicy.Json.Draft
import RowPolicy.Json.Printer
import RowPolicy.Text.Blank

/-!
# Parameters on the command line

A parameter is written `column=value`. The value is a JSON scalar if it reads as one, and a text
otherwise.
-/

namespace RowPolicy.Command

inductive ParamError where
  | noValue (pair : String)
  | noColumn (pair : String)
  | notScalar (pair : String) (value : Json)
  deriving Inhabited

def ParamError.message : ParamError → String
  | .noValue pair => "invalid --param '" ++ pair ++ "': expected col=value"
  | .noColumn pair => "invalid --param '" ++ pair ++ "': empty column name"
  | .notScalar pair value =>
    "invalid --param '" ++ pair ++ "': " ++ value.compact ++ " is not a scalar"

def splitPair (cs : List Char) : Option (List Char × List Char) :=
  match cs.dropWhile (· != '=') with
  | [] => none
  | _ :: value => some (cs.takeWhile (· != '='), value)

def paramValue (pair text : String) : Except ParamError Json :=
  match Json.parse text with
  | .ok j => if j.isScalar then .ok j else .error (.notScalar pair j)
  | .error _ => .ok (.str text)

def parseParam (pair : String) : Except ParamError (String × Json) :=
  match splitPair pair.toList with
  | none => .error (.noValue pair)
  | some (before, value) => do
    let column := Text.trim (String.ofList before)
    if column.isEmpty then throw (.noColumn pair)
    let j ← paramValue pair (String.ofList value)
    pure (column, j)

/-- Read parameters in order. A repeated column keeps its place and takes the last value. -/
def parseParams (pairs : List String) : Except ParamError Json.Fields :=
  (pairs.mapM parseParam).map Json.Fields.merge

end RowPolicy.Command
