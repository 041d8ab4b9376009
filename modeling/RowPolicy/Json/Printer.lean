import RowPolicy.Json.Value
import RowPolicy.Number.Layout

/-!
# Compact JSON text

Fields in order, no blanks. Quotes, backslashes and the characters below U+0020 are escaped, and
nothing else. A real that is not finite is written `null`.
-/

namespace RowPolicy.Json

def hexDigit (n : Nat) : Char := if n < 10 then Char.ofNat (48 + n) else Char.ofNat (87 + n)

def escapeChar (c : Char) : List Char :=
  if c == '"' then ['\\', '"']
  else if c == '\\' then ['\\', '\\']
  else if c.toNat < 0x20 then
    if c == '\n' then ['\\', 'n']
    else if c == '\r' then ['\\', 'r']
    else if c == '\t' then ['\\', 't']
    else if c.toNat == 0x08 then ['\\', 'b']
    else if c.toNat == 0x0C then ['\\', 'f']
    else ['\\', 'u', '0', '0', hexDigit (c.toNat / 16), hexDigit (c.toNat % 16)]
  else [c]

def quotedChars (s : String) : List Char := '"' :: (s.toList.flatMap escapeChar ++ ['"'])

def realChars (x : Binary64) : List Char :=
  if x.isFinite then x.jsonText.toList else "null".toList

mutual

def chars : Json → List Char
  | .null => "null".toList
  | .bool b => if b then "true".toList else "false".toList
  | .int i => Number.intChars i
  | .real x => realChars x
  | .str s => quotedChars s
  | .arr items => '[' :: (itemsChars items ++ [']'])
  | .obj fields => '\x7b' :: (fieldsChars fields ++ ['\x7d'])

def itemsChars : List Json → List Char
  | [] => []
  | j :: rest => chars j ++ moreItemsChars rest

def moreItemsChars : List Json → List Char
  | [] => []
  | j :: rest => ',' :: (chars j ++ moreItemsChars rest)

def fieldsChars : List (String × Json) → List Char
  | [] => []
  | (k, j) :: rest => quotedChars k ++ ':' :: (chars j ++ moreFieldsChars rest)

def moreFieldsChars : List (String × Json) → List Char
  | [] => []
  | (k, j) :: rest => ',' :: (quotedChars k ++ ':' :: (chars j ++ moreFieldsChars rest))

end

def compact (j : Json) : String := String.ofList j.chars

end RowPolicy.Json
