import RowPolicy.Number.Binary64

/-!
# JSON values

A JSON value keeps its object fields in order. A tree may hold a key more than once, as a text can;
`normalize` leaves each key at its first place with its last value.
-/

namespace RowPolicy

inductive Json where
  | null
  | bool (b : Bool)
  | int (i : Int)
  | real (x : Binary64)
  | str (s : String)
  | arr (items : List Json)
  | obj (fields : List (String × Json))
  deriving Inhabited, BEq

namespace Json

abbrev Fields := List (String × Json)

def Fields.get? (key : String) : Fields → Option Json
  | [] => none
  | (k, v) :: rest => if k == key then some v else get? key rest

/-- Store a value under a key: in place if the key is there, else at the end. -/
def Fields.put (key : String) (value : Json) : Fields → Fields
  | [] => [(key, value)]
  | (k, v) :: rest => if k == key then (k, value) :: rest else (k, v) :: put key value rest

/-- Each key at its first place with its last value. -/
def Fields.merge (fields : Fields) : Fields :=
  fields.foldl (fun merged field => merged.put field.1 field.2) []

mutual

def normalize : Json → Json
  | .arr items => .arr (normalizeItems items)
  | .obj fields => .obj (Fields.merge (normalizeFields fields))
  | j => j

def normalizeItems : List Json → List Json
  | [] => []
  | j :: rest => normalize j :: normalizeItems rest

def normalizeFields : List (String × Json) → List (String × Json)
  | [] => []
  | (k, j) :: rest => (k, normalize j) :: normalizeFields rest

end

def field? (key : String) : Json → Option Json
  | .obj fields => Fields.get? key fields
  | _ => none

/-- A scalar is neither an array nor an object. -/
def isScalar : Json → Bool
  | .arr _ => false
  | .obj _ => false
  | _ => true

def texts (ss : List String) : Json := .arr (ss.map .str)

def textAt (key : String) (j : Json) : String :=
  match j.field? key with
  | some (.str s) => s
  | _ => ""

def flagAt (key : String) (j : Json) : Bool :=
  match j.field? key with
  | some (.bool b) => b
  | _ => false

def itemsAt (key : String) (j : Json) : List Json :=
  match j.field? key with
  | some (.arr items) => items
  | _ => []

def textOf : Json → String
  | .str s => s
  | _ => ""

end Json

end RowPolicy
