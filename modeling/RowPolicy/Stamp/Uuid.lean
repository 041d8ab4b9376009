import RowPolicy.Json.Printer
import RowPolicy.Json.Token

/-!
# Universally unique identifiers

An identifier is 128 bits. It is written as five groups of lower-case hexadecimal digits, and read
in that form, in braces, after `urn:uuid:`, or as 32 digits without hyphens, in either case.
-/

namespace RowPolicy

structure Uuid where
  value : BitVec 128
  deriving DecidableEq, Repr, Inhabited

inductive UuidError where
  | badChar (found : Char) (index : Nat)
  | badLength (found : Nat)
  | badGroupCount (found : Nat)
  | badGroupLength (group : Nat) (expected found : Nat)
  deriving DecidableEq, Repr, Inhabited

def UuidError.message : UuidError → String
  | .badChar found index =>
    "invalid character: found `" ++ String.ofList [found] ++ "` at " ++ Number.natText index
  | .badLength found => "invalid length: found " ++ Number.natText found
  | .badGroupCount found => "invalid group count: expected 5, found " ++ Number.natText found
  | .badGroupLength group expected found =>
    "invalid group length in group " ++ Number.natText group ++ ": expected "
      ++ Number.natText expected ++ ", found " ++ Number.natText found

namespace Uuid

/-! ### Writing -/

def hexDigits (u : Uuid) : List Char :=
  (List.range 32).map fun i => Json.hexDigit (u.value.toNat / Nat.pow 16 (31 - i) % 16)

/-- Digits in groups of 8, 4, 4, 4 and 12 with hyphens between them. -/
def grouped (ds : List Char) : List Char :=
  ds.take 8 ++ '-' :: (ds.drop 8).take 4 ++ '-' :: (ds.drop 12).take 4
    ++ '-' :: (ds.drop 16).take 4 ++ '-' :: ds.drop 20

def text (u : Uuid) : String := String.ofList (grouped u.hexDigits)

/-! ### Reading -/

def ofHex? (cs : List Char) : Option Uuid :=
  if cs.length == 32 then
    (cs.mapM Json.hexValue?).map fun ds => ⟨BitVec.ofNat 128 (ds.foldl (fun n d => 16 * n + d) 0)⟩
  else none

def ofHyphenated? (cs : List Char) : Option Uuid :=
  let ds := cs.filter (· != '-')
  if cs == grouped ds then ofHex? ds else none

/-- The text without braces or the `urn:uuid:` in front, how much was dropped in front, and whether
nothing was. -/
def unwrap (cs : List Char) : List Char × Nat × Bool :=
  match cs with
  | '\x7b' :: rest =>
    if rest.getLast? == some '\x7d' then (rest.dropLast, 1, false) else (cs, 0, true)
  | _ =>
    let urn := "urn:uuid:".toList
    if cs.take urn.length == urn then (cs.drop urn.length, urn.length, false) else (cs, 0, true)

def groupLengths : List Char → List Nat
  | [] => [0]
  | c :: cs =>
    match groupLengths cs with
    | n :: ns => if c == '-' then 0 :: n :: ns else (n + 1) :: ns
    | [] => []

def wrongGroup (index : Nat) : List (Nat × Nat) → UuidError
  | [] => .badGroupCount 5
  | (expected, found) :: rest =>
    if expected == found then wrongGroup (index + 1) rest
    else .badGroupLength index expected found

def byteCount (cs : List Char) : Nat := cs.foldl (fun n c => n + c.utf8Size) 0

def diagnose (cs : List Char) : UuidError :=
  let (inner, dropped, bare) := unwrap cs
  let isGood := fun c => c == '-' || (Json.hexValue? c).isSome
  match inner.dropWhile isGood with
  | c :: _ =>
    .badChar c (dropped + byteCount (inner.takeWhile isGood))
  | [] =>
    let groups := groupLengths inner
    if groups.length == 1 && bare then .badLength (byteCount cs)
    else if groups.length != 5 then .badGroupCount groups.length
    else wrongGroup 0 ([8, 4, 4, 4, 12].zip groups)

def parse (s : String) : Except UuidError Uuid :=
  let cs := s.toList
  let read := ofHex? cs <|> ofHyphenated? (unwrap cs).1
  match read with
  | some u => .ok u
  | none => .error (diagnose cs)

/-- The `n`-th identifier of a sequence of distinct ones, in the form of a random identifier. -/
def nth (n : Nat) : Uuid :=
  ⟨BitVec.ofNat 128 (0x00000000000040008000000000000000 + n % Nat.pow 2 60)⟩

end Uuid

end RowPolicy
