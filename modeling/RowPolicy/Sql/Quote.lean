import RowPolicy.Literal

/-!
# Quoted names and literals

A name is written between double quotes and a text between single quotes; a quote inside is
written twice. So no name or text can end early.
-/

namespace RowPolicy.Sql

/-- A text with every `quote` written twice. -/
def doubled (quote : Char) (cs : List Char) : List Char :=
  cs.flatMap fun c => if c == quote then [quote, quote] else [c]

def enclosed (quote : Char) (s : String) : String :=
  String.ofList (quote :: (doubled quote s.toList ++ [quote]))

def quoteName (name : String) : String := enclosed '"' name

def quoteText (s : String) : String := enclosed '\x27' s

def realLiteral (x : Binary64) : String :=
  let text := x.plainText
  if text.toList.contains '.' then text else text ++ ".0"

/-- A literal. Truth values are written as 1 and 0. -/
def quoteLiteral : Literal → String
  | .null => "NULL"
  | .bool b => if b then "1" else "0"
  | .int i => Number.intText i
  | .real x => realLiteral x
  | .text s => quoteText s

end RowPolicy.Sql
