/-!
# UTF-8

The octets of a text, and two readings of octets as a text: `decode?` refuses
any ill-formed sequence, and `decodeLossy` puts the replacement character in
the place of each. An ill-formed sequence is as long as the longest beginning
of a well-formed one, and one octet long where no well-formed sequence begins.
-/

namespace Logbook.Text.Utf8

/-- The octets of a text. -/
def encode (s : String) : List UInt8 := s.toList.flatMap String.utf8EncodeChar

/-- The octet continues a sequence. -/
def isTail (b : UInt8) : Bool := 0x80 ≤ b && b ≤ 0xbf

/-- The octet may follow the first octet `a` of a sequence of three. -/
def isSecondOfThree (a b : UInt8) : Bool :=
  (a == 0xe0 && 0xa0 ≤ b && b ≤ 0xbf) || (a == 0xed && 0x80 ≤ b && b ≤ 0x9f) ||
  (a != 0xe0 && a != 0xed && isTail b)

/-- The octet may follow the first octet `a` of a sequence of four. -/
def isSecondOfFour (a b : UInt8) : Bool :=
  (a == 0xf0 && 0x90 ≤ b && b ≤ 0xbf) || (a == 0xf4 && 0x80 ≤ b && b ≤ 0x8f) ||
  (a != 0xf0 && a != 0xf4 && isTail b)

/-- The bits that a tail octet adds to a code point. -/
def tailBits (b : UInt8) : Nat := b.toNat % 64

/-- The character that begins with the octet `a`, or `none` for an ill-formed
    sequence, with the octets that follow. -/
def step (a : UInt8) (rest : List UInt8) : Option Char × List UInt8 :=
  if a ≤ 0x7f then (some (Char.ofNat a.toNat), rest)
  else if 0xc2 ≤ a && a ≤ 0xdf then
    match rest with
    | b :: r =>
      if isTail b then (some (Char.ofNat (a.toNat % 32 * 64 + tailBits b)), r) else (none, b :: r)
    | [] => (none, [])
  else if 0xe0 ≤ a && a ≤ 0xef then
    match rest with
    | b :: r =>
      if isSecondOfThree a b then
        match r with
        | c :: r' =>
          if isTail c then
            (some (Char.ofNat ((a.toNat % 16 * 64 + tailBits b) * 64 + tailBits c)), r')
          else (none, c :: r')
        | [] => (none, [])
      else (none, b :: r)
    | [] => (none, [])
  else if 0xf0 ≤ a && a ≤ 0xf4 then
    match rest with
    | b :: r =>
      if isSecondOfFour a b then
        match r with
        | c :: r' =>
          if isTail c then
            match r' with
            | d :: r'' =>
              if isTail d then
                (some (Char.ofNat
                  (((a.toNat % 8 * 64 + tailBits b) * 64 + tailBits c) * 64 + tailBits d)), r'')
              else (none, d :: r'')
            | [] => (none, [])
          else (none, c :: r')
        | [] => (none, [])
      else (none, b :: r)
    | [] => (none, [])
  else (none, rest)

/-- A step leaves no more octets than it is given. -/
theorem length_step_le (a : UInt8) (rest : List UInt8) : (step a rest).2.length ≤ rest.length := by
  unfold step
  repeat' split
  all_goals simp
  all_goals omega

/-- The text that the octets are the encoding of, with the replacement character
    in the place of each ill-formed sequence. -/
def decodeLossy : List UInt8 → List Char
  | [] => []
  | a :: rest => (step a rest).1.getD '\ufffd' :: decodeLossy (step a rest).2
  termination_by bytes => bytes.length
  decreasing_by
    have := length_step_le a rest
    simp only [List.length_cons]
    omega

/-- The text that the octets are the encoding of, if every sequence is well
    formed. -/
def decode? : List UInt8 → Option (List Char)
  | [] => some []
  | a :: rest => do
    let c ← (step a rest).1
    let cs ← decode? (step a rest).2
    pure (c :: cs)
  termination_by bytes => bytes.length
  decreasing_by
    have := length_step_le a rest
    simp only [List.length_cons]
    omega

@[simp] theorem encode_empty : encode "" = [] := rfl

/-- The octets of two texts in a row are those of the first and of the second. -/
theorem encode_append (s t : String) : encode (s ++ t) = encode s ++ encode t := by
  simp [encode, String.toList_append]

end Logbook.Text.Utf8
