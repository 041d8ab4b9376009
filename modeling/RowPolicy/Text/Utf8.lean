/-!
# UTF-8

Decoding of byte sequences, strictly or with every maximal ill-formed part replaced by the
replacement character.
-/

namespace RowPolicy.Text

def replacement : Char := '\uFFFD'

def isContinuation (b : UInt8) : Bool := 0x80 ≤ b && b ≤ 0xBF

/-- The six payload bits of a continuation byte. -/
def payload (b : UInt8) : Nat := b.toNat % 64

/-- Whether `b` may follow the lead byte `a` as the second byte of a longer sequence. -/
def isSecond (a b : UInt8) : Bool :=
  if a == 0xE0 then 0xA0 ≤ b && b ≤ 0xBF
  else if a == 0xED then 0x80 ≤ b && b ≤ 0x9F
  else if a == 0xF0 then 0x90 ≤ b && b ≤ 0xBF
  else if a == 0xF4 then 0x80 ≤ b && b ≤ 0x8F
  else isContinuation b

/-- Decode one character; on ill-formed input, `none` and the bytes after the maximal part that
could have started a character. -/
def decodeChar (a : UInt8) (rest : List UInt8) : Option Char × List UInt8 :=
  if a < 0x80 then (some (Char.ofNat a.toNat), rest)
  else if 0xC2 ≤ a && a ≤ 0xDF then
    match rest with
    | b :: r =>
      if isContinuation b then (some (Char.ofNat ((a.toNat % 32) * 64 + payload b)), r)
      else (none, rest)
    | [] => (none, [])
  else if 0xE0 ≤ a && a ≤ 0xEF then
    match rest with
    | b :: r =>
      if isSecond a b then
        match r with
        | c :: r' =>
          if isContinuation c then
            (some (Char.ofNat ((a.toNat % 16) * 4096 + payload b * 64 + payload c)), r')
          else (none, r)
        | [] => (none, [])
      else (none, rest)
    | [] => (none, [])
  else if 0xF0 ≤ a && a ≤ 0xF4 then
    match rest with
    | b :: r =>
      if isSecond a b then
        match r with
        | c :: r' =>
          if isContinuation c then
            match r' with
            | d :: r'' =>
              if isContinuation d then
                (some (Char.ofNat ((a.toNat % 8) * 262144 + payload b * 4096 + payload c * 64
                  + payload d)), r'')
              else (none, r')
            | [] => (none, [])
          else (none, r)
        | [] => (none, [])
      else (none, rest)
    | [] => (none, [])
  else (none, rest)

theorem length_decodeChar_le (a : UInt8) (rest : List UInt8) :
    (decodeChar a rest).2.length ≤ rest.length := by
  unfold decodeChar
  repeat' split
  all_goals simp_all
  all_goals omega

/-- The decoded characters, `none` standing for an ill-formed part. -/
def decodeParts : List UInt8 → List (Option Char)
  | [] => []
  | a :: rest => (decodeChar a rest).1 :: decodeParts (decodeChar a rest).2
termination_by bytes => bytes.length
decreasing_by
  have := length_decodeChar_le a rest
  simp only [List.length_cons]
  omega

/-- Decode, replacing every ill-formed part. -/
def decodeLossy (bytes : List UInt8) : String :=
  String.ofList ((decodeParts bytes).map (·.getD replacement))

/-- Decode, or `none` if some part is ill-formed. -/
def decode? (bytes : List UInt8) : Option String :=
  ((decodeParts bytes).mapM id).map String.ofList

def encode (s : String) : List UInt8 := s.toUTF8.toList

end RowPolicy.Text
