/-!
# Sorted lists without repetition

Names are ordered by code point, which is also the order of their UTF-8 bytes.
-/

namespace RowPolicy.Text

/-- Insert `s` into a sorted list unless it is there already. -/
def insertSorted (s : String) : List String → List String
  | [] => [s]
  | t :: ts => if s < t then s :: t :: ts else if s == t then t :: ts else t :: insertSorted s ts

def sortDistinct (ss : List String) : List String := ss.foldr insertSorted []

variable {α κ : Type}

/-- Insert by a key, after the elements with an equal key. -/
def insertByKey (lt : κ → κ → Bool) (key : α → κ) (a : α) : List α → List α
  | [] => [a]
  | b :: bs => if lt (key a) (key b) then a :: b :: bs else b :: insertByKey lt key a bs

/-- Sort by a key, keeping the order of elements with equal keys. -/
def sortByKey (lt : κ → κ → Bool) (key : α → κ) (as : List α) : List α :=
  as.foldl (fun sorted a => insertByKey lt key a sorted) []

end RowPolicy.Text
