/-!
# Keyed lists

A list that holds at most one element per key, in the order of the keys. The order `lt` is given
with each insertion.
-/

namespace RowPolicy.Keyed

variable {α κ : Type} [BEq κ]

def get? (key : α → κ) (k : κ) (as : List α) : Option α := as.find? fun a => key a == k

/-- Put an element in its place; it replaces the one with the same key. -/
def insert (lt : κ → κ → Bool) (key : α → κ) (a : α) : List α → List α
  | [] => [a]
  | b :: bs =>
    if key b == key a then a :: bs
    else if lt (key a) (key b) then a :: b :: bs
    else b :: insert lt key a bs

def erase (key : α → κ) (k : κ) (as : List α) : List α := as.filter fun a => !(key a == k)

def textLt (a b : String) : Bool := a < b

end RowPolicy.Keyed
