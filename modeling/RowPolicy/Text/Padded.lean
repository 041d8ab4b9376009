/-!
# Padding

Cells of a printed listing are filled with spaces on the right up to a width counted in
characters; a longer text is kept whole.
-/

namespace RowPolicy.Text

def padRight (width : Nat) (s : String) : String :=
  s ++ String.ofList (List.replicate (width - s.length) ' ')

def repeated (n : Nat) (c : Char) : String := String.ofList (List.replicate n c)

end RowPolicy.Text
