/-!
# Blank characters

The characters with the Unicode property `White_Space`, and trimming by them.
-/

namespace RowPolicy.Text

/-- Whether `c` has the Unicode property `White_Space`. -/
def isBlank (c : Char) : Bool :=
  let n := c.toNat
  (0x09 ≤ n && n ≤ 0x0D) || n == 0x20 || n == 0x85 || n == 0xA0 || n == 0x1680
    || (0x2000 ≤ n && n ≤ 0x200A) || n == 0x2028 || n == 0x2029 || n == 0x202F
    || n == 0x205F || n == 0x3000

/-- Drop the characters at the end that satisfy `p`. -/
def dropEndWhile (p : Char → Bool) (cs : List Char) : List Char :=
  (cs.reverse.dropWhile p).reverse

def trim (s : String) : String :=
  String.ofList (dropEndWhile isBlank (s.toList.dropWhile isBlank))

def trimEndChar (c : Char) (s : String) : String :=
  String.ofList (dropEndWhile (· == c) s.toList)

def isBlankText (s : String) : Bool := s.toList.all isBlank

end RowPolicy.Text
