import Logbook.Json.Number
import Logbook.Text.Split

/-!
# Reading JSON

Readers take the characters of a text from the front and yield a value with the
characters that follow it. They go through the text once, so of several faults
the first one is reported. `ReadError` tells apart a text that ends too early,
a text that is no JSON, and a value that is JSON but not the kind that is asked
for. `readValue` reads any value and `read` a whole text.
-/

namespace Logbook.Json

/-- Why a text cannot be read. -/
inductive ReadError where
  /-- The text ends inside a value. -/
  | truncated
  /-- The text breaks the grammar. -/
  | malformed
  /-- The value is not one that is asked for. -/
  | unsuitable (message : String)
  deriving DecidableEq, Repr

/-- A reader of values of the type `α`. -/
abbrev Reader (α : Type) := List Char → Except ReadError (α × List Char)

/-- The characters that may stand between the parts of a value. -/
def isGap (c : Char) : Bool := c == ' ' || c == '\n' || c == '\t' || c == '\r'

/-- The text without the blank characters at its front. -/
def skipGap (cs : List Char) : List Char := cs.dropWhile isGap

/-- The text behind the given word, whose first character is already known. -/
def readWord : List Char → Reader Unit
  | [], cs => .ok ((), cs)
  | _ :: _, [] => .error .truncated
  | w :: word, c :: cs => if c = w then readWord word cs else .error .malformed

/-- The value of a hexadecimal digit. -/
def hexValue? (c : Char) : Option Nat :=
  if '0' ≤ c ∧ c ≤ '9' then some (c.toNat - '0'.toNat)
  else if 'a' ≤ c ∧ c ≤ 'f' then some (c.toNat - 'a'.toNat + 10)
  else if 'A' ≤ c ∧ c ≤ 'F' then some (c.toNat - 'A'.toNat + 10)
  else none

/-- The value of the four hexadecimal digits at the front. A text with fewer
    than four octets left ends too early. -/
def readHexUnit (cs : List Char) : Except ReadError (Nat × List Char) :=
  let broken := if (String.ofList cs).utf8ByteSize < 4 then .error .truncated else .error .malformed
  match cs with
  | a :: b :: c :: d :: rest =>
    match hexValue? a, hexValue? b, hexValue? c, hexValue? d with
    | some a, some b, some c, some d => .ok (((a * 16 + b) * 16 + c) * 16 + d, rest)
    | _, _, _, _ => broken
  | _ => broken

/-- The unit may only stand behind one that `isLeadingHalf` holds of. -/
def isTrailingHalf (n : Nat) : Bool := 0xdc00 ≤ n && n ≤ 0xdfff

/-- The unit is the first half of a character beyond the first plane. -/
def isLeadingHalf (n : Nat) : Bool := 0xd800 ≤ n && n ≤ 0xdbff

/-- The second half of a character, behind its backslash and its letter. -/
def readTrailingHalf : List Char → Except ReadError (Nat × List Char)
  | [] => .error .truncated
  | '\\' :: [] => .error .truncated
  | '\\' :: 'u' :: cs => do
    let (n, rest) ← readHexUnit cs
    if isTrailingHalf n then .ok (n, rest) else .error .malformed
  | _ => .error .malformed

/-- The character that a letter or sign behind a backslash stands for. -/
def simpleEscape? (c : Char) : Option Char :=
  if c = '"' ∨ c = '\\' ∨ c = '/' then some c
  else if c = 'b' then some '\x08'
  else if c = 'f' then some '\x0c'
  else if c = 'n' then some '\n'
  else if c = 'r' then some '\r'
  else if c = 't' then some '\t'
  else none

/-- The character whose number is written in one or two units, behind the letter
    of its escape. -/
def readUnits (cs : List Char) : Except ReadError (Char × List Char) := do
  let (n, rest) ← readHexUnit cs
  if isTrailingHalf n then .error .malformed
  else if isLeadingHalf n then
    let (m, rest) ← readTrailingHalf rest
    .ok (Char.ofNat ((n - 0xd800) * 1024 + (m - 0xdc00) + 0x10000), rest)
  else .ok (Char.ofNat n, rest)

/-- The character of an escape, behind its backslash. -/
def readEscape : List Char → Except ReadError (Char × List Char)
  | [] => .error .truncated
  | c :: cs =>
    match simpleEscape? c with
    | some escaped => .ok (escaped, cs)
    | none => if c = 'u' then readUnits cs else .error .malformed

theorem length_readHexUnit_le {cs : List Char} {n : Nat} {rest : List Char}
    (h : readHexUnit cs = .ok (n, rest)) : rest.length ≤ cs.length := by
  unfold readHexUnit at h
  simp only at h
  split at h
  · split at h
    · cases h
      simp only [List.length_cons]
      omega
    · split at h <;> simp at h
  · split at h <;> simp at h

theorem length_readTrailingHalf_le {cs : List Char} {n : Nat} {rest : List Char}
    (h : readTrailingHalf cs = .ok (n, rest)) : rest.length ≤ cs.length := by
  unfold readTrailingHalf at h
  split at h
  · simp at h
  · simp at h
  · simp only [bind, Except.bind] at h
    split at h
    · simp at h
    · next v hv =>
      obtain ⟨m, r⟩ := v
      have hle := length_readHexUnit_le hv
      simp only at h
      split at h
      · cases h
        simp only [List.length_cons]
        omega
      · simp at h
  · simp at h

theorem length_readUnits_le {cs : List Char} {c : Char} {rest : List Char}
    (h : readUnits cs = .ok (c, rest)) : rest.length ≤ cs.length := by
  unfold readUnits at h
  simp only [bind, Except.bind] at h
  split at h
  · simp at h
  · next v hv =>
    obtain ⟨n, r⟩ := v
    have hle := length_readHexUnit_le hv
    simp only at h
    split at h
    · simp at h
    · split at h
      · split at h
        · simp at h
        · next w hw =>
          obtain ⟨m, r'⟩ := w
          have hle' := length_readTrailingHalf_le hw
          simp only [Except.ok.injEq, Prod.mk.injEq] at h
          obtain ⟨_, rfl⟩ := h
          omega
      · simp only [Except.ok.injEq, Prod.mk.injEq] at h
        obtain ⟨_, rfl⟩ := h
        omega

/-- An escape leaves no more characters than it is given. -/
theorem length_readEscape_le {cs : List Char} {c : Char} {rest : List Char}
    (h : readEscape cs = .ok (c, rest)) : rest.length ≤ cs.length := by
  unfold readEscape at h
  split at h
  · simp at h
  · split at h
    · simp only [Except.ok.injEq, Prod.mk.injEq] at h
      obtain ⟨_, rfl⟩ := h
      simp
    · split at h
      · have hle := length_readUnits_le h
        simp only [List.length_cons]
        omega
      · simp at h

/-- The characters of a text, behind its opening quote, up to the closing one. -/
def readTextRest : List Char → Except ReadError (List Char × List Char)
  | [] => .error .truncated
  | c :: cs =>
    if c = '"' then .ok ([], cs)
    else if c = '\\' then
      match _h : readEscape cs with
      | .error e => .error e
      | .ok (escaped, rest) =>
        match readTextRest rest with
        | .error e => .error e
        | .ok (later, after) => .ok (escaped :: later, after)
    else if c.toNat < 0x20 then .error .malformed
    else
      match readTextRest cs with
      | .error e => .error e
      | .ok (later, after) => .ok (c :: later, after)
  termination_by cs => cs.length
  decreasing_by
    · have := length_readEscape_le _h
      simp only [List.length_cons]
      omega
    · simp

/-- A text, behind its opening quote. -/
def readText : Reader String := fun cs => do
  let (content, rest) ← readTextRest cs
  .ok (String.ofList content, rest)

/-- The digits at the front, of which there has to be one. -/
def readDigits (cs : List Char) : Except ReadError (List Char × List Char) :=
  match cs.takeWhile Char.isDigit with
  | [] => if cs.isEmpty then .error .truncated else .error .malformed
  | ds => .ok (ds, cs.dropWhile Char.isDigit)

/-- The digits before the point: a zero alone, or digits that start with another. -/
def readWhole (cs : List Char) : Except ReadError (List Char × List Char) := do
  let (ds, rest) ← readDigits cs
  match ds with
  | '0' :: _ :: _ => .error .malformed
  | _ => .ok (ds, rest)

/-- The digits behind a point, if there is one. -/
def readFraction : Reader (Option (List Char))
  | '.' :: cs => do
    let (ds, rest) ← readDigits cs
    .ok (some ds, rest)
  | cs => .ok (none, cs)

def readExponent : Reader (Option Int)
  | c :: cs =>
    if c = 'e' ∨ c = 'E' then
      match cs with
      | '-' :: cs => do
        let (ds, rest) ← readDigits cs
        .ok (some (-Text.digitsValue ds), rest)
      | '+' :: cs => do
        let (ds, rest) ← readDigits cs
        .ok (some (Text.digitsValue ds), rest)
      | cs => do
        let (ds, rest) ← readDigits cs
        .ok (some (Text.digitsValue ds), rest)
    else .ok (none, c :: cs)
  | [] => .ok (none, [])

/-- A number, behind its minus sign if it has one. -/
def readMagnitude (negative : Bool) : Reader Json := fun cs => do
  let (whole, cs) ← readWhole cs
  let (fraction, cs) ← readFraction cs
  let (exponent, cs) ← readExponent cs
  match NumberParts.value? ⟨negative, whole, fraction, exponent⟩ with
  | some value => .ok (value, cs)
  | none => .error .malformed

def readNumber : Reader Json
  | '-' :: cs => readMagnitude true cs
  | cs => readMagnitude false cs

/-- The text at the next element of an array, or `none` at its closing bracket.
    The text stands behind the opening bracket or, unless `first`, behind an
    element. -/
def nextElement (first : Bool) (cs : List Char) : Except ReadError (Option (List Char)) :=
  match skipGap cs with
  | [] => .error .truncated
  | ']' :: _ => .ok none
  | c :: rest =>
    if first then .ok (some (c :: rest))
    else if c = ',' then
      match skipGap rest with
      | [] => .error .truncated
      | ']' :: _ => .error .malformed
      | after => .ok (some after)
    else .error .malformed

/-- The elements of an array up to its closing bracket. Every round takes a
    character, so as many rounds as there are characters are enough. -/
def readElementsAux (item : Reader α) : Nat → Bool → Reader (List α)
  | 0, _, _ => .error .truncated
  | fuel + 1, first, cs => do
    match ← nextElement first cs with
    | none => .ok ([], (skipGap cs).drop 1)
    | some start =>
      let (element, after) ← item start
      let (elements, after) ← readElementsAux item fuel false after
      .ok (element :: elements, after)

/-- The elements of an array, behind its opening bracket. -/
def readElements (item : Reader α) : Reader (List α) := fun cs =>
  readElementsAux item (cs.length + 1) true cs

/-- The text behind the opening quote of the next name of an object, or `none`
    at its closing brace. -/
def nextName (first : Bool) (cs : List Char) : Except ReadError (Option (List Char)) :=
  match skipGap cs with
  | [] => .error .truncated
  | '\x7d' :: _ => .ok none
  | c :: rest =>
    if first then if c = '"' then .ok (some rest) else .error .malformed
    else if c = ',' then
      match skipGap rest with
      | [] => .error .truncated
      | '"' :: after => .ok (some after)
      | _ => .error .malformed
    else .error .malformed

/-- The text behind the colon between a name and its value. -/
def readColon (cs : List Char) : Except ReadError (Unit × List Char) :=
  match skipGap cs with
  | [] => .error .truncated
  | ':' :: rest => .ok ((), rest)
  | _ => .error .malformed

/-- Takes the members of an object one after another into a state. The member
    reader gets the name and starts behind it. -/
def readMembersAux (member : String → σ → Reader σ) : Nat → Bool → σ → Reader σ
  | 0, _, _, _ => .error .truncated
  | fuel + 1, first, state, cs => do
    match ← nextName first cs with
    | none => .ok (state, (skipGap cs).drop 1)
    | some rest =>
      let (name, rest) ← readText rest
      let (state, rest) ← member name state rest
      readMembersAux member fuel false state rest

/-- The members of an object, behind its opening brace. -/
def readMembers (member : String → σ → Reader σ) (state : σ) : Reader σ := fun cs =>
  readMembersAux member (cs.length + 1) true state cs

/-- A value of any kind in which arrays and objects are nested at most `depth`
    deep. -/
def readValue : Nat → Reader Json
  | depth, cs =>
    match skipGap cs with
    | [] => .error .truncated
    | 'n' :: rest => (readWord ['u', 'l', 'l'] rest).map fun (_, rest) => (.null, rest)
    | 't' :: rest => (readWord ['r', 'u', 'e'] rest).map fun (_, rest) => (.bool true, rest)
    | 'f' :: rest => (readWord ['a', 'l', 's', 'e'] rest).map fun (_, rest) => (.bool false, rest)
    | '"' :: rest => (readText rest).map fun (s, rest) => (.text s, rest)
    | '[' :: rest =>
      match depth with
      | 0 => .error .malformed
      | depth + 1 =>
        (readElements (readValue depth) rest).map fun (elements, rest) => (.array elements, rest)
    | '\x7b' :: rest =>
      match depth with
      | 0 => .error .malformed
      | depth + 1 =>
        (readMembers (fun name members cs => do
            let (_, cs) ← readColon cs
            let (value, cs) ← readValue depth cs
            .ok (members ++ [(name, value)], cs)) [] rest).map
          fun (members, rest) => (.object members, rest)
    | c :: rest => if c = '-' ∨ c.isDigit then readNumber (c :: rest) else .error .malformed

/-- The depth of nesting that a whole text may have. -/
def maxDepth : Nat := 127

/-- What a reader reads, if only blank characters follow it. -/
def readAll (reader : Reader α) (cs : List Char) : Except ReadError α := do
  let (value, rest) ← reader cs
  if (skipGap rest).isEmpty then .ok value else .error .malformed

/-- The value that a whole text holds. -/
def read (s : String) : Except ReadError Json := readAll (readValue maxDepth) s.toList

end Logbook.Json
