import Mathlib.Algebra.Order.Field.Rat
import Logbook.Decimal.Layout
import Logbook.Json.Reader

/-!
# What a JSON text says

A JSON text is a row of tokens, between which blanks may stand: the marks that
bracket and separate, the words `null`, `true` and `false`, texts between quotes,
and numbers. `Json.Denotes` says that the tokens of a text are those of a value.
The value of a number is exact, and nothing bounds how deep values are nested.
`Denotes.unique` says that a text denotes at most one value.
-/

namespace Logbook.Json

/-- What a JSON text says, whatever the way in which it is written. -/
inductive Content where
  | null
  | bool (value : Bool)
  | number (value : Rat)
  | text (value : String)
  | array (elements : List Content)
  | object (members : List (String × Content))

inductive Token where
  | null
  | bool (value : Bool)
  | number (value : Rat)
  | text (value : String)
  | mark (c : Char)

/-- The characters that bracket and separate values. -/
def isMark (c : Char) : Bool :=
  c == '[' || c == ']' || c == '\x7b' || c == '\x7d' || c == ',' || c == ':'

section Numbers

/-- One or more digits. -/
def IsDigits (ds : List Char) : Prop := ds ≠ [] ∧ ∀ c ∈ ds, c.isDigit = true

/-- The digits of an exponent behind its letter, with or without a sign. -/
inductive SpellsExponent : Option Int → List Char → Prop
  | none : SpellsExponent none []
  | bare {letter : Char} {ds : List Char} : letter = 'e' ∨ letter = 'E' → IsDigits ds →
      SpellsExponent (some (Text.digitsValue ds)) (letter :: ds)
  | plus {letter : Char} {ds : List Char} : letter = 'e' ∨ letter = 'E' → IsDigits ds →
      SpellsExponent (some (Text.digitsValue ds)) (letter :: '+' :: ds)
  | minus {letter : Char} {ds : List Char} : letter = 'e' ∨ letter = 'E' → IsDigits ds →
      SpellsExponent (some (-Text.digitsValue ds)) (letter :: '-' :: ds)

/-- The factor that a minus sign stands for. -/
def signFactor (negative : Bool) : Rat := if negative then -1 else 1

namespace NumberParts

/-- The point and the digits behind it, if there are any. -/
def fractionChars : Option (List Char) → List Char
  | none => []
  | some ds => '.' :: ds

/-- The characters spell a number with the given parts. No zero stands before other
    digits of the whole part. -/
structure Spells (parts : NumberParts) (cs : List Char) : Prop where
  whole : IsDigits parts.whole
  lead : parts.whole.head? = some '0' → parts.whole = ['0']
  fraction : ∀ ds, parts.fraction = some ds → IsDigits ds
  exponent : ∃ behind, SpellsExponent parts.exponent behind ∧
    cs = Decimal.signed parts.negative
      (parts.whole ++ (fractionChars parts.fraction ++ behind))

/-- The number itself. -/
def exact (parts : NumberParts) : Rat :=
  signFactor parts.negative * (Text.digitsValue (parts.whole ++ parts.fraction.getD []) *
    (10 : Rat) ^ (parts.exponent.getD 0 - ((parts.fraction.getD []).length : Int)))

end NumberParts

/-- The character may stand in a number. -/
def isNumberChar (c : Char) : Bool :=
  c.isDigit || c == '-' || c == '+' || c == '.' || c == 'e' || c == 'E'

end Numbers

/-- The number that four hexadecimal digits stand for. -/
def hexUnit? (a b c d : Char) : Option Nat := do
  let a ← hexValue? a
  let b ← hexValue? b
  let c ← hexValue? c
  let d ← hexValue? d
  pure (((a * 16 + b) * 16 + c) * 16 + d)

/-- The text behind an opening quote, the characters up to the closing quote, and what
    follows it. -/
inductive Quoted : List Char → List Char → List Char → Prop
  | close {rest : List Char} : Quoted ('"' :: rest) [] rest
  | plain {c : Char} {cs content rest : List Char} : c ≠ '"' → c ≠ '\\' → 0x20 ≤ c.toNat →
      Quoted cs content rest → Quoted (c :: cs) (c :: content) rest
  | escape {letter c : Char} {cs content rest : List Char} : simpleEscape? letter = some c →
      Quoted cs content rest → Quoted ('\\' :: letter :: cs) (c :: content) rest
  | unit {a b c d : Char} {n : Nat} {cs content rest : List Char} : hexUnit? a b c d = some n →
      isLeadingHalf n = false → isTrailingHalf n = false → Quoted cs content rest →
      Quoted ('\\' :: 'u' :: a :: b :: c :: d :: cs) (Char.ofNat n :: content) rest
  | pair {a b c d a' b' c' d' : Char} {m n : Nat} {cs content rest : List Char} :
      hexUnit? a b c d = some m → isLeadingHalf m = true →
      hexUnit? a' b' c' d' = some n → isTrailingHalf n = true → Quoted cs content rest →
      Quoted ('\\' :: 'u' :: a :: b :: c :: d :: '\\' :: 'u' :: a' :: b' :: c' :: d' :: cs)
        (Char.ofNat ((m - 0xd800) * 1024 + (n - 0xdc00) + 0x10000) :: content) rest

/-- What a text begins with: a blank, for which there is no token, or a token, and what
    follows it. A number goes on as far as it can. -/
inductive Begins : List Char → Option Token → List Char → Prop
  | gap {c : Char} {rest : List Char} : isGap c = true → Begins (c :: rest) none rest
  | mark {c : Char} {rest : List Char} : isMark c = true → Begins (c :: rest) (some (.mark c)) rest
  | null {rest : List Char} : Begins ('n' :: 'u' :: 'l' :: 'l' :: rest) (some .null) rest
  | true {rest : List Char} : Begins ('t' :: 'r' :: 'u' :: 'e' :: rest) (some (.bool true)) rest
  | false {rest : List Char} :
      Begins ('f' :: 'a' :: 'l' :: 's' :: 'e' :: rest) (some (.bool false)) rest
  | text {cs content rest : List Char} : Quoted cs content rest →
      Begins ('"' :: cs) (some (.text (String.ofList content))) rest
  | number {parts : NumberParts} {cs literal rest : List Char} : parts.Spells literal →
      cs = literal ++ rest → (∀ c ∈ rest.head?, isNumberChar c = false) →
      Begins cs (some (.number parts.exact)) rest

/-- The tokens of a text. -/
inductive Lexes : List Char → List Token → Prop
  | nil : Lexes [] []
  | begins {cs rest : List Char} {token : Option Token} {tokens : List Token} :
      Begins cs token rest → Lexes rest tokens → Lexes cs (token.toList ++ tokens)

mutual

/-- The tokens of a value. -/
def Content.tokens : Content → List Token
  | .null => [.null]
  | .bool value => [.bool value]
  | .number value => [.number value]
  | .text value => [.text value]
  | .array [] => [.mark '[', .mark ']']
  | .array (element :: rest) => .mark '[' :: element.tokens ++ elementsTokens rest
  | .object [] => [.mark '\x7b', .mark '\x7d']
  | .object ((name, value) :: rest) =>
    .mark '\x7b' :: .text name :: .mark ':' :: value.tokens ++ membersTokens rest

/-- The tokens of the further elements of an array, up to its closing bracket. -/
def elementsTokens : List Content → List Token
  | [] => [.mark ']']
  | element :: rest => .mark ',' :: element.tokens ++ elementsTokens rest

/-- The tokens of the further members of an object, up to its closing brace. -/
def membersTokens : List (String × Content) → List Token
  | [] => [.mark '\x7d']
  | (name, value) :: rest =>
    .mark ',' :: .text name :: .mark ':' :: value.tokens ++ membersTokens rest

end

/-- The text says the value. -/
def Denotes (cs : List Char) (value : Content) : Prop := Lexes cs value.tokens

/-- A run of characters that ends where the next one is of another kind is told by the
    text that it begins. -/
theorem eq_of_append_eq {p : Char → Bool} {xs ys xs' ys' : List Char}
    (hxs : ∀ c ∈ xs, p c = true) (hys : ∀ c ∈ ys.head?, p c = false)
    (hxs' : ∀ c ∈ xs', p c = true) (hys' : ∀ c ∈ ys'.head?, p c = false)
    (h : xs ++ ys = xs' ++ ys') : xs = xs' ∧ ys = ys' := by
  have hrun : ∀ {us vs : List Char}, (∀ c ∈ us, p c = true) → (∀ c ∈ vs.head?, p c = false) →
      (us ++ vs).takeWhile p = us := by
    intro us vs hus hvs
    rw [List.takeWhile_append_of_pos hus]
    cases vs with
    | nil => simp
    | cons v vs =>
      have hv : p v = false := hvs v rfl
      simp [hv]
  have heq : xs = xs' := by rw [← hrun hxs hys, h, hrun hxs' hys']
  subst heq
  exact ⟨rfl, List.append_cancel_left h⟩

theorem isNumberChar_of_isDigit {c : Char} (h : c.isDigit = true) : isNumberChar c = true := by
  simp [isNumberChar, h]

namespace SpellsExponent

variable {exponent exponent' : Option Int} {cs : List Char}

theorem head_eq (h : SpellsExponent exponent cs) : ∀ c ∈ cs.head?, c = 'e' ∨ c = 'E' := by
  cases h <;> simp_all

theorem unique (h : SpellsExponent exponent cs) (h' : SpellsExponent exponent' cs) :
    exponent = exponent' := by
  -- a sign is no digit, so that digits behind the letter are no sign
  have hplus : ∀ {ds}, ¬ IsDigits ('+' :: ds) :=
    fun hds => absurd (hds.2 '+' List.mem_cons_self) (by decide)
  have hminus : ∀ {ds}, ¬ IsDigits ('-' :: ds) :=
    fun hds => absurd (hds.2 '-' List.mem_cons_self) (by decide)
  cases h with
  | none => cases h'; rfl
  | bare _ hds => cases h' with
    | bare _ _ => rfl
    | plus _ _ => exact absurd hds hplus
    | minus _ _ => exact absurd hds hminus
  | plus _ hds => cases h' with
    | bare _ hds' => exact absurd hds' hplus
    | plus _ _ => rfl
  | minus _ hds => cases h' with
    | bare _ hds' => exact absurd hds' hminus
    | minus _ _ => rfl

theorem isNumberChar (h : SpellsExponent exponent cs) : ∀ c ∈ cs, isNumberChar c = true := by
  have hdigits : ∀ {ds}, IsDigits ds → ∀ c ∈ ds, Json.isNumberChar c = true :=
    fun hds c hc => isNumberChar_of_isDigit (hds.2 c hc)
  have hletter : ∀ {letter}, letter = 'e' ∨ letter = 'E' → Json.isNumberChar letter = true := by
    rintro letter (rfl | rfl) <;> decide
  have hsign : Json.isNumberChar '+' = true ∧ Json.isNumberChar '-' = true := by decide
  cases h with
  | none => exact List.forall_mem_nil _
  | bare hl hds => exact List.forall_mem_cons.2 ⟨hletter hl, hdigits hds⟩
  | plus hl hds =>
    exact List.forall_mem_cons.2 ⟨hletter hl, List.forall_mem_cons.2 ⟨hsign.1, hdigits hds⟩⟩
  | minus hl hds =>
    exact List.forall_mem_cons.2 ⟨hletter hl, List.forall_mem_cons.2 ⟨hsign.2, hdigits hds⟩⟩

end SpellsExponent

namespace NumberParts

variable {parts parts' : NumberParts} {cs : List Char}

/-- No digit follows where a fraction may begin. -/
theorem head_fractionChars_append (fraction : Option (List Char)) {exponent : Option Int}
    {behind : List Char} (h : SpellsExponent exponent behind) :
    ∀ c ∈ (fractionChars fraction ++ behind).head?, c.isDigit = false := by
  intro c hc
  cases fraction with
  | none =>
    rcases h.head_eq c (by simpa [fractionChars] using hc) with rfl | rfl <;> decide
  | some ds =>
    obtain rfl : c = '.' := by simpa [fractionChars, eq_comm] using hc
    decide

/-- A digit is no sign. -/
theorem signed_append_inj {negative negative' : Bool} {ds ds' behind behind' : List Char}
    (hds : IsDigits ds) (hds' : IsDigits ds')
    (h : Decimal.signed negative (ds ++ behind) = Decimal.signed negative' (ds' ++ behind')) :
    negative = negative' ∧ ds ++ behind = ds' ++ behind' := by
  have hfirst : ∀ {us vs ws : List Char}, IsDigits us → us ++ vs ≠ '-' :: ws := by
    intro us vs ws hus heq
    cases us with
    | nil => exact hus.1 rfl
    | cons u us =>
      obtain rfl : u = '-' := (List.cons.inj heq).1
      exact absurd (hus.2 '-' List.mem_cons_self) (by decide)
  cases negative <;> cases negative'
  · exact ⟨rfl, h⟩
  · exact absurd h (hfirst hds)
  · exact absurd h.symm (hfirst hds')
  · exact ⟨rfl, (List.cons.inj h).2⟩

theorem fractionChars_append_inj {fraction fraction' : Option (List Char)}
    {exponent exponent' : Option Int} {behind behind' : List Char}
    (hds : ∀ ds, fraction = some ds → IsDigits ds)
    (hds' : ∀ ds, fraction' = some ds → IsDigits ds)
    (hbehind : SpellsExponent exponent behind) (hbehind' : SpellsExponent exponent' behind')
    (h : fractionChars fraction ++ behind = fractionChars fraction' ++ behind') :
    fraction = fraction' ∧ behind = behind' := by
  have hpoint : ∀ {exponent : Option Int} {cs ds : List Char}, SpellsExponent exponent cs →
      cs ≠ '.' :: ds := by
    intro exponent cs ds hcs heq
    rcases hcs.head_eq '.' (by rw [heq]; rfl) with hc | hc <;> exact absurd hc (by decide)
  cases fraction with
  | none => cases fraction' with
    | none => exact ⟨rfl, h⟩
    | some ds' => exact absurd h (hpoint hbehind)
  | some ds => cases fraction' with
    | none => exact absurd h.symm (hpoint hbehind')
    | some ds' =>
      obtain ⟨rfl, hbehinds⟩ := eq_of_append_eq (hds ds rfl).2
        (head_fractionChars_append none hbehind) (hds' ds' rfl).2
        (head_fractionChars_append none hbehind') (List.cons.inj h).2
      exact ⟨rfl, hbehinds⟩

/-- The characters of a number tell its parts. -/
theorem Spells.unique (h : parts.Spells cs) (h' : parts'.Spells cs) : parts = parts' := by
  obtain ⟨behind, hbehind, hcs⟩ := h.exponent
  obtain ⟨behind', hbehind', hcs'⟩ := h'.exponent
  obtain ⟨hnegative, hmagnitude⟩ := signed_append_inj h.whole h'.whole (hcs.symm.trans hcs')
  obtain ⟨hwhole, hrest⟩ := eq_of_append_eq h.whole.2 (head_fractionChars_append _ hbehind)
    h'.whole.2 (head_fractionChars_append _ hbehind') hmagnitude
  obtain ⟨hfraction, rfl⟩ :=
    fractionChars_append_inj h.fraction h'.fraction hbehind hbehind' hrest
  have hexponent := hbehind.unique hbehind'
  obtain ⟨negative, whole, fraction, exponent⟩ := parts
  obtain ⟨negative', whole', fraction', exponent'⟩ := parts'
  subst hnegative hwhole hfraction hexponent
  rfl

theorem Spells.isNumberChar (h : parts.Spells cs) : ∀ c ∈ cs, isNumberChar c = true := by
  obtain ⟨behind, hbehind, rfl⟩ := h.exponent
  have hdigits : ∀ {ds}, IsDigits ds → ∀ c ∈ ds, Json.isNumberChar c = true :=
    fun hds c hc => isNumberChar_of_isDigit (hds.2 c hc)
  have hfraction : ∀ c ∈ fractionChars parts.fraction, Json.isNumberChar c = true := by
    cases hds : parts.fraction with
    | none => exact List.forall_mem_nil _
    | some ds => exact List.forall_mem_cons.2 ⟨by decide, hdigits (h.fraction ds hds)⟩
  have hmagnitude : ∀ c ∈ parts.whole ++ (fractionChars parts.fraction ++ behind),
      Json.isNumberChar c = true :=
    List.forall_mem_append.2
      ⟨hdigits h.whole, List.forall_mem_append.2 ⟨hfraction, hbehind.isNumberChar⟩⟩
  cases parts.negative with
  | false => exact hmagnitude
  | true => exact List.forall_mem_cons.2 ⟨by decide, hmagnitude⟩

/-- A number begins with a minus sign or a digit. -/
theorem Spells.head_eq (h : parts.Spells cs) :
    ∃ c behind, cs = c :: behind ∧ (c = '-' ∨ c.isDigit = true) := by
  obtain ⟨behind, -, rfl⟩ := h.exponent
  cases parts.negative with
  | true => exact ⟨'-', _, rfl, .inl rfl⟩
  | false =>
    obtain ⟨first, ds, hwhole⟩ := List.exists_cons_of_ne_nil h.whole.1
    refine ⟨first, ds ++ (fractionChars parts.fraction ++ behind), ?_, .inr ?_⟩
    · rw [hwhole]
      rfl
    · exact h.whole.2 first (by rw [hwhole]; exact List.mem_cons_self)

end NumberParts

/-- What stands between quotes and behind them is told by the text. -/
theorem Quoted.unique {cs content content' rest rest' : List Char} (h : Quoted cs content rest)
    (h' : Quoted cs content' rest') : content = content' ∧ rest = rest' := by
  -- the letter before hexadecimal digits stands for nothing by itself
  have hunit : ∀ {c}, simpleEscape? 'u' ≠ some c := by
    intro c h
    have hnone : simpleEscape? 'u' = none := by decide
    rw [hnone] at h
    cases h
  induction h generalizing content' rest' with
  | close => cases h' with
    | close => exact ⟨rfl, rfl⟩
    | plain hquote => exact absurd rfl hquote
  | plain hquote hslash _ _ ih => cases h' with
    | close => exact absurd rfl hquote
    | plain _ _ _ hrest =>
      obtain ⟨rfl, rfl⟩ := ih hrest
      exact ⟨rfl, rfl⟩
    | escape => exact absurd rfl hslash
    | unit => exact absurd rfl hslash
    | pair => exact absurd rfl hslash
  | escape hc _ ih => cases h' with
    | plain _ hslash => exact absurd rfl hslash
    | escape hc' hrest =>
      obtain ⟨rfl, rfl⟩ := ih hrest
      obtain rfl := Option.some.inj (hc.symm.trans hc')
      exact ⟨rfl, rfl⟩
    | unit => exact absurd hc hunit
    | pair => exact absurd hc hunit
  | unit hn hlead _ _ ih => cases h' with
    | plain _ hslash => exact absurd rfl hslash
    | escape hc' => exact absurd hc' hunit
    | unit hn' _ _ hrest =>
      obtain ⟨rfl, rfl⟩ := ih hrest
      obtain rfl := Option.some.inj (hn.symm.trans hn')
      exact ⟨rfl, rfl⟩
    | pair hm' hlead' =>
      obtain rfl := Option.some.inj (hn.symm.trans hm')
      rw [hlead] at hlead'
      cases hlead'
  | pair hm hlead hn _ _ ih => cases h' with
    | plain _ hslash => exact absurd rfl hslash
    | escape hc' => exact absurd hc' hunit
    | unit hn' hlead' =>
      obtain rfl := Option.some.inj (hm.symm.trans hn')
      rw [hlead] at hlead'
      cases hlead'
    | pair hm' _ hn' _ hrest =>
      obtain ⟨rfl, rfl⟩ := ih hrest
      obtain rfl := Option.some.inj (hm.symm.trans hm')
      obtain rfl := Option.some.inj (hn.symm.trans hn')
      exact ⟨rfl, rfl⟩

/-- Where a number begins, nothing else does. -/
theorem numberStart_ne {c : Char} (h : c = '-' ∨ c.isDigit = true) :
    isGap c = false ∧ isMark c = false ∧ c ≠ 'n' ∧ c ≠ 't' ∧ c ≠ 'f' ∧ c ≠ '"' := by
  have hne : ∀ d : Char, d ≠ '-' → d.isDigit = false → c ≠ d := by
    rintro d hminus hdigit rfl
    rcases h with h | h
    · exact hminus h
    · rw [hdigit] at h
      cases h
  simp [isGap, isMark, hne]

theorem isMark_of_isGap {c : Char} (h : isGap c = true) : isMark c = false := by
  simp only [isGap, Bool.or_eq_true, beq_iff_eq] at h
  rcases h with ((rfl | rfl) | rfl) | rfl <;> decide

/-- A text that begins with a number, which ends where no further character of it may
    stand, begins with nothing else. -/
theorem begins_number_unique {parts : NumberParts} {cs literal rest rest' : List Char}
    {token : Option Token} (hspells : parts.Spells literal)
    (hcs : cs = literal ++ rest) (hrest : ∀ c ∈ rest.head?, isNumberChar c = false)
    (h : Begins cs token rest') : token = some (.number parts.exact) ∧ rest' = rest := by
  obtain ⟨c, behind, hliteral, hc⟩ := hspells.head_eq
  obtain ⟨hgap, hmark, hn, ht, hf, hquote⟩ := numberStart_ne hc
  have hfirst : ∀ {d ds}, d :: ds = literal ++ rest → d = c := by
    intro d ds heq
    rw [hliteral] at heq
    exact (List.cons.inj heq).1
  cases h with
  | gap hd => rw [hfirst hcs, hgap] at hd; cases hd
  | mark hd => rw [hfirst hcs, hmark] at hd; cases hd
  | null => exact absurd (hfirst hcs).symm hn
  | true => exact absurd (hfirst hcs).symm ht
  | false => exact absurd (hfirst hcs).symm hf
  | text => exact absurd (hfirst hcs).symm hquote
  | number hspells' hcs' hrest' =>
    obtain ⟨rfl, rfl⟩ := eq_of_append_eq hspells.isNumberChar hrest hspells'.isNumberChar hrest'
      (hcs.symm.trans hcs')
    obtain rfl := hspells.unique hspells'
    exact ⟨rfl, rfl⟩

/-- What a text begins with is told by the text. -/
theorem Begins.unique {cs rest rest' : List Char} {token token' : Option Token}
    (h : Begins cs token rest) (h' : Begins cs token' rest') : token = token' ∧ rest = rest' := by
  cases h with
  | number hspells hcs hrest =>
    exact (begins_number_unique hspells hcs hrest h').imp Eq.symm Eq.symm
  | gap hc => cases h' with
    | gap => exact ⟨rfl, rfl⟩
    | mark hc' => rw [isMark_of_isGap hc] at hc'; cases hc'
    | number hspells hcs hrest => exact begins_number_unique hspells hcs hrest (.gap hc)
    | _ => exact absurd hc (by decide)
  | mark hc => cases h' with
    | mark => exact ⟨rfl, rfl⟩
    | gap hc' => rw [isMark_of_isGap hc'] at hc; cases hc
    | number hspells hcs hrest => exact begins_number_unique hspells hcs hrest (.mark hc)
    | _ => exact absurd hc (by decide)
  | null => cases h' with
    | null => exact ⟨rfl, rfl⟩
    | number hspells hcs hrest => exact begins_number_unique hspells hcs hrest .null
    | gap hc | mark hc => exact absurd hc (by decide)
  | true => cases h' with
    | true => exact ⟨rfl, rfl⟩
    | number hspells hcs hrest => exact begins_number_unique hspells hcs hrest .true
    | gap hc | mark hc => exact absurd hc (by decide)
  | false => cases h' with
    | false => exact ⟨rfl, rfl⟩
    | number hspells hcs hrest => exact begins_number_unique hspells hcs hrest .false
    | gap hc | mark hc => exact absurd hc (by decide)
  | text hquoted => cases h' with
    | text hquoted' =>
      obtain ⟨rfl, rfl⟩ := hquoted.unique hquoted'
      exact ⟨rfl, rfl⟩
    | number hspells hcs hrest => exact begins_number_unique hspells hcs hrest (.text hquoted)
    | gap hc | mark hc => exact absurd hc (by decide)

theorem not_begins_nil {rest : List Char} {token : Option Token} : ¬ Begins [] token rest := by
  intro h
  cases h with
  | number hspells hcs =>
    obtain ⟨c, behind, rfl, -⟩ := hspells.head_eq
    cases hcs

/-- A text has one row of tokens at most. -/
theorem Lexes.unique {cs : List Char} {tokens tokens' : List Token} (h : Lexes cs tokens)
    (h' : Lexes cs tokens') : tokens = tokens' := by
  induction h generalizing tokens' with
  | nil => cases h' with
    | nil => rfl
    | begins hbegins => exact absurd hbegins not_begins_nil
  | begins hbegins _ ih => cases h' with
    | nil => exact absurd hbegins not_begins_nil
    | begins hbegins' hrest =>
      obtain ⟨rfl, rfl⟩ := hbegins.unique hbegins'
      rw [ih hrest]

/-- The token that a value begins with. -/
def Content.firstToken : Content → Token
  | .null => .null
  | .bool value => .bool value
  | .number value => .number value
  | .text value => .text value
  | .array _ => .mark '['
  | .object _ => .mark '\x7b'

theorem Content.tokens_eq_cons (value : Content) :
    ∃ behind, value.tokens = value.firstToken :: behind := by
  rcases value with _ | _ | _ | _ | (_ | _) | (_ | _) <;> exact ⟨_, rfl⟩

theorem Content.firstToken_eq {value value' : Content} {behind behind' : List Token}
    (h : value.tokens ++ behind = value'.tokens ++ behind') :
    value.firstToken = value'.firstToken := by
  obtain ⟨tokens, htokens⟩ := value.tokens_eq_cons
  obtain ⟨tokens', htokens'⟩ := value'.tokens_eq_cons
  rw [htokens, htokens'] at h
  exact (List.cons.inj h).1

/-- No value begins with a closing bracket. -/
theorem Content.tokens_append_ne (value : Content) (behind rest : List Token) :
    value.tokens ++ behind ≠ .mark ']' :: rest := by
  intro h
  obtain ⟨tokens, htokens⟩ := value.tokens_eq_cons
  rw [htokens] at h
  have hfirst : value.firstToken = .mark ']' := (List.cons.inj h).1
  cases value <;> simp [firstToken] at hfirst

mutual

/-- The tokens of a value tell it, and where it ends. -/
theorem Content.tokens_append_inj (value value' : Content) {behind behind' : List Token}
    (h : value.tokens ++ behind = value'.tokens ++ behind') :
    value = value' ∧ behind = behind' := by
  -- the first token tells values of different kinds apart
  have hfirst := Content.firstToken_eq h
  cases value with
  | null => cases value' with
    | null => exact ⟨rfl, (List.cons.inj h).2⟩
    | _ => cases hfirst
  | bool b => cases value' with
    | bool b' => cases hfirst; exact ⟨rfl, (List.cons.inj h).2⟩
    | _ => cases hfirst
  | number q => cases value' with
    | number q' => cases hfirst; exact ⟨rfl, (List.cons.inj h).2⟩
    | _ => cases hfirst
  | text s => cases value' with
    | text s' => cases hfirst; exact ⟨rfl, (List.cons.inj h).2⟩
    | _ => cases hfirst
  | array elements => cases value' with
    | array elements' =>
      match elements, elements' with
      | [], [] => exact ⟨rfl, (List.cons.inj (List.cons.inj h).2).2⟩
      | [], element :: rest =>
        simp only [Content.tokens, List.cons_append, List.cons.injEq, true_and,
          List.append_assoc] at h
        exact absurd h.symm (element.tokens_append_ne _ _)
      | element :: rest, [] =>
        simp only [Content.tokens, List.cons_append, List.cons.injEq, true_and,
          List.append_assoc] at h
        exact absurd h (element.tokens_append_ne _ _)
      | element :: rest, element' :: rest' =>
        simp only [Content.tokens, List.cons_append, List.cons.injEq, true_and,
          List.append_assoc] at h
        obtain ⟨rfl, hrest⟩ := Content.tokens_append_inj element element' h
        obtain ⟨rfl, rfl⟩ := elementsTokens_append_inj rest rest' hrest
        exact ⟨rfl, rfl⟩
    | _ => cases hfirst
  | object members => cases value' with
    | object members' =>
      match members, members' with
      | [], [] => exact ⟨rfl, (List.cons.inj (List.cons.inj h).2).2⟩
      | [], (name, value) :: rest => simp [Content.tokens] at h
      | (name, value) :: rest, [] => simp [Content.tokens] at h
      | (name, value) :: rest, (name', value') :: rest' =>
        simp only [Content.tokens, List.cons_append, List.cons.injEq, true_and, List.append_assoc,
          Token.text.injEq] at h
        obtain ⟨rfl, hvalue⟩ := h
        obtain ⟨rfl, hrest⟩ := Content.tokens_append_inj value value' hvalue
        obtain ⟨rfl, rfl⟩ := membersTokens_append_inj rest rest' hrest
        exact ⟨rfl, rfl⟩
    | _ => cases hfirst

theorem elementsTokens_append_inj (elements elements' : List Content)
    {behind behind' : List Token}
    (h : elementsTokens elements ++ behind = elementsTokens elements' ++ behind') :
    elements = elements' ∧ behind = behind' := by
  match elements, elements' with
  | [], [] => simpa [elementsTokens] using h
  | [], _ :: _ => simp [elementsTokens] at h
  | _ :: _, [] => simp [elementsTokens] at h
  | element :: rest, element' :: rest' =>
    simp only [elementsTokens, List.cons_append, List.cons.injEq, true_and,
      List.append_assoc] at h
    obtain ⟨rfl, hrest⟩ := Content.tokens_append_inj element element' h
    obtain ⟨rfl, rfl⟩ := elementsTokens_append_inj rest rest' hrest
    exact ⟨rfl, rfl⟩

theorem membersTokens_append_inj (members members' : List (String × Content))
    {behind behind' : List Token}
    (h : membersTokens members ++ behind = membersTokens members' ++ behind') :
    members = members' ∧ behind = behind' := by
  match members, members' with
  | [], [] => simpa [membersTokens] using h
  | [], _ :: _ => simp [membersTokens] at h
  | _ :: _, [] => simp [membersTokens] at h
  | (name, value) :: rest, (name', value') :: rest' =>
    simp only [membersTokens, List.cons_append, List.cons.injEq, true_and, List.append_assoc,
      Token.text.injEq] at h
    obtain ⟨rfl, hvalue⟩ := h
    obtain ⟨rfl, hrest⟩ := Content.tokens_append_inj value value' hvalue
    obtain ⟨rfl, rfl⟩ := membersTokens_append_inj rest rest' hrest
    exact ⟨rfl, rfl⟩

end

/-- A text says one value at most. -/
theorem Denotes.unique {cs : List Char} {value value' : Content} (h : Denotes cs value)
    (h' : Denotes cs value') : value = value' := by
  have htokens : value.tokens ++ [] = value'.tokens ++ [] := by
    rw [List.append_nil, List.append_nil]
    exact Lexes.unique h h'
  exact (value.tokens_append_inj value' htokens).1

end Logbook.Json
