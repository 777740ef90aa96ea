import Logbook.Proofs.Json.Number

/-!
# What a written value says

`Json.content` is what the written form of a value says: a floating point number
is the decimal that is written for it, and null where it is no finite number.
`denotes_chars` says that the characters of a written value are a JSON text of
just that content, and `le_of_mem_chars` that none of them is a control character.
-/

namespace Logbook.Json

/-- What is written for the floating point number of the word `w`. -/
def NumberStyle.content (style : NumberStyle) (w : Nat) : Content :=
  match style.format.decode w with
  | .nan | .infinite _ => .null
  | .finite negative mantissa exponent =>
    .number (signFactor negative *
      if mantissa = 0 then 0 else (style.format.shortest .toEven mantissa exponent).value)

mutual

/-- What the written form of a value says. -/
def content : Json → Content
  | .null => .null
  | .bool value => .bool value
  | .integer n => .number n
  | .single w => singleStyle.content w.toNat
  | .double w => doubleStyle.content w.toNat
  | .text s => .text s
  | .array elements => .array (elementsContent elements)
  | .object members => .object (membersContent members)

def elementsContent : List Json → List Content
  | [] => []
  | element :: rest => content element :: elementsContent rest

def membersContent : List (String × Json) → List (String × Content)
  | [] => []
  | (name, value) :: rest => (name, content value) :: membersContent rest

end

theorem elementsContent_eq_map (elements : List Json) :
    elementsContent elements = elements.map content := by
  induction elements with
  | nil => rfl
  | cons element rest ih => simp [elementsContent, ih]

theorem membersContent_eq_map (members : List (String × Json)) :
    membersContent members = members.map fun m => (m.1, m.2.content) := by
  induction members with
  | nil => rfl
  | cons m rest ih => simp [membersContent, ih]

section Texts

theorem hexValue?_hexDigit {n : Nat} (h : n < 16) : hexValue? (hexDigit n) = some n := by
  revert n
  decide

/-- The characters that stand for a character between quotes stand for that one. -/
theorem Quoted.escapedChar (c : Char) {cs content rest : List Char} (h : Quoted cs content rest) :
    Quoted (Json.escapedChar c ++ cs) (c :: content) rest := by
  unfold Json.escapedChar
  iterate 7
    split
    · next hc => subst hc; exact .escape (by decide) h
  split
  · next hcontrol =>
    have hunit : hexUnit? '0' '0' (hexDigit (c.toNat / 16)) (hexDigit (c.toNat % 16)) =
        some c.toNat := by
      have hzero : hexValue? '0' = some 0 := by decide
      simp only [hexUnit?, hzero, hexValue?_hexDigit (show c.toNat / 16 < 16 by omega),
        hexValue?_hexDigit (show c.toNat % 16 < 16 by omega)]
      show some _ = some _
      congr 1
      omega
    have hquoted := Quoted.unit hunit (by simp [isLeadingHalf]; omega)
      (by simp [isTrailingHalf]; omega) h
    rw [Char.ofNat_toNat] at hquoted
    exact hquoted
  · next hquote hslash _ _ _ _ _ hcontrol =>
    exact .plain hquote hslash (by omega) h

theorem quoted_flatMap (content rest : List Char) :
    Quoted (content.flatMap Json.escapedChar ++ '"' :: rest) content rest := by
  induction content with
  | nil => exact .close
  | cons c content ih =>
    rw [List.flatMap_cons, List.append_assoc]
    exact ih.escapedChar c

theorem begins_textChars (s : String) (rest : List Char) :
    Begins (textChars s ++ rest) (some (.text s)) rest := by
  have hbegins : Begins _ _ rest := .text (quoted_flatMap s.toList rest)
  rw [String.ofList_toList] at hbegins
  simpa [textChars] using hbegins

end Texts

section Numbers

theorem begins_number {q : Rat} {cs rest : List Char} (h : SpellsNumber q cs)
    (hrest : ∀ c ∈ rest.head?, isNumberChar c = false) :
    Begins (cs ++ rest) (some (.number q)) rest := by
  obtain ⟨parts, hspells, rfl⟩ := h
  exact .number hspells rfl hrest

theorem spellsNumber_zero (negative : Bool) :
    SpellsNumber (signFactor negative * 0) (Decimal.signed negative ['0', '.', '0']) := by
  have hspells := spellsNumber_point negative isDigits_zero (fun _ => rfl) isDigits_zero
  have hvalue : Text.digitsValue (['0'] ++ ['0']) = 0 := by decide
  rw [hvalue, Nat.cast_zero, zero_mul] at hspells
  exact hspells

theorem NumberStyle.content_spec {style : NumberStyle}
    (hf : style.format = .single ∨ style.format = .double) (w : Nat) :
    style.content w = .null ∧ style.chars w = ['n', 'u', 'l', 'l'] ∨
      ∃ q, style.content w = .number q ∧ SpellsNumber q (style.chars w) := by
  unfold content chars
  cases hdecode : style.format.decode w with
  | nan => exact .inl ⟨rfl, rfl⟩
  | infinite negative => exact .inl ⟨rfl, rfl⟩
  | finite negative mantissa exponent =>
    refine .inr ⟨_, rfl, ?_⟩
    by_cases hm : mantissa = 0
    · simp only [hm, if_true]
      exact spellsNumber_zero negative
    · have hproper := Decimal.Format.proper_shortest hf hdecode hm .toEven
      simp only [hm, if_false]
      split
      · exact spellsNumber_positional hproper negative
      · exact spellsNumber_scientific hproper negative

end Numbers

theorem NumberStyle.lexes_chars {style : NumberStyle} {rest : List Char} {tokens : List Token}
    (hf : style.format = .single ∨ style.format = .double) (w : Nat)
    (hrest : ∀ c ∈ rest.head?, isNumberChar c = false) (h : Lexes rest tokens) :
    Lexes (style.chars w ++ rest) ((style.content w).tokens ++ tokens) := by
  rcases content_spec hf w with ⟨hcontent, hchars⟩ | ⟨q, hcontent, hspells⟩
  · rw [hcontent, hchars]
    exact .begins .null h
  · rw [hcontent]
    exact .begins (begins_number hspells hrest) h

/-- A comma or a closing bracket comes behind an element. -/
theorem head_elementsChars (elements : List Json) {rest : List Char} :
    ∀ c ∈ (elementsChars elements ++ ']' :: rest).head?, isNumberChar c = false := by
  intro c hc
  cases elements with
  | nil =>
    obtain rfl : c = ']' := by simpa [elementsChars, eq_comm] using hc
    decide
  | cons element elements =>
    obtain rfl : c = ',' := by simpa [elementsChars, eq_comm] using hc
    decide

theorem head_membersChars (members : List (String × Json)) {rest : List Char} :
    ∀ c ∈ (membersChars members ++ '\x7d' :: rest).head?, isNumberChar c = false := by
  intro c hc
  cases members with
  | nil =>
    obtain rfl : c = '\x7d' := by simpa [membersChars, eq_comm] using hc
    decide
  | cons m members =>
    obtain rfl : c = ',' := by simpa [membersChars, eq_comm] using hc
    decide

mutual

/-- The tokens of a written value are those of its content, whatever follows that does
    not go on with a number. -/
theorem lexes_chars (value : Json) {rest : List Char} {tokens : List Token}
    (hrest : ∀ c ∈ rest.head?, isNumberChar c = false) (h : Lexes rest tokens) :
    Lexes (value.chars ++ rest) (value.content.tokens ++ tokens) := by
  match value with
  | .null => exact .begins .null h
  | .bool true => exact .begins .true h
  | .bool false => exact .begins .false h
  | .integer n => exact .begins (begins_number (spellsNumber_integerChars n) hrest) h
  | .single w => exact singleStyle.lexes_chars (.inl rfl) w.toNat hrest h
  | .double w => exact doubleStyle.lexes_chars (.inr rfl) w.toNat hrest h
  | .text s => exact .begins (begins_textChars s rest) h
  | .array [] => exact .begins (.mark rfl) (.begins (.mark rfl) h)
  | .array (element :: elements) =>
    -- a number at the end of an element ends there, for no number goes on with a comma or a bracket
    have helement := lexes_chars element (head_elementsChars elements)
      (lexes_elementsChars elements h)
    have harray := Lexes.begins (.mark (c := '[') rfl) helement
    simpa [chars, content, elementsContent, Content.tokens] using harray
  | .object [] => exact .begins (.mark rfl) (.begins (.mark rfl) h)
  | .object ((name, value) :: members) =>
    have hvalue := lexes_chars value (head_membersChars members) (lexes_membersChars members h)
    have hmember := Lexes.begins (begins_textChars name _) (.begins (.mark (c := ':') rfl) hvalue)
    have hobject := Lexes.begins (.mark (c := '\x7b') rfl) hmember
    simpa [chars, content, membersContent, Content.tokens] using hobject

theorem lexes_elementsChars (elements : List Json) {rest : List Char} {tokens : List Token}
    (h : Lexes rest tokens) :
    Lexes (elementsChars elements ++ ']' :: rest)
      (elementsTokens (elementsContent elements) ++ tokens) := by
  match elements with
  | [] => exact .begins (.mark rfl) h
  | element :: elements =>
    have helement := lexes_chars element (head_elementsChars elements)
      (lexes_elementsChars elements h)
    have hcomma := Lexes.begins (.mark (c := ',') rfl) helement
    simpa [elementsChars, elementsContent, elementsTokens] using hcomma

theorem lexes_membersChars (members : List (String × Json)) {rest : List Char}
    {tokens : List Token} (h : Lexes rest tokens) :
    Lexes (membersChars members ++ '\x7d' :: rest)
      (membersTokens (membersContent members) ++ tokens) := by
  match members with
  | [] => exact .begins (.mark rfl) h
  | (name, value) :: members =>
    have hvalue := lexes_chars value (head_membersChars members) (lexes_membersChars members h)
    have hmember := Lexes.begins (begins_textChars name _) (.begins (.mark (c := ':') rfl) hvalue)
    have hcomma := Lexes.begins (.mark (c := ',') rfl) hmember
    simpa [membersChars, membersContent, membersTokens] using hcomma

end

/-- The characters of a written value say just its content. -/
theorem denotes_chars_iff (value : Json) (content : Content) :
    Denotes value.chars content ↔ content = value.content := by
  have hdenotes : Denotes value.chars value.content := by
    have h : Lexes (value.chars ++ []) (value.content.tokens ++ []) :=
      lexes_chars value (by simp) .nil
    rwa [List.append_nil, List.append_nil] at h
  constructor
  · intro h
    exact h.unique hdenotes
  · rintro rfl
    exact hdenotes

section Controls

theorem le_of_mem_of_all {cs : List Char} (hall : (cs.all fun c => 0x20 ≤ c.toNat) = true)
    {c : Char} (h : c ∈ cs) : 0x20 ≤ c.toNat := by
  simpa using List.all_eq_true.1 hall c h

theorem le_of_isNumberChar {c : Char} (h : isNumberChar c = true) : 0x20 ≤ c.toNat := by
  simp only [isNumberChar, Bool.or_eq_true, beq_iff_eq] at h
  rcases h with ((((h | rfl) | rfl) | rfl) | rfl) | rfl
  · have hdigit : 48 ≤ c.val.toNat ∧ c.val.toNat ≤ 57 := by
      simpa [Char.isDigit, UInt32.le_iff_toNat_le] using h
    exact Nat.le_trans (by decide) hdigit.1
  all_goals decide

theorem SpellsNumber.le_of_mem {q : Rat} {cs : List Char} (h : SpellsNumber q cs) :
    ∀ c ∈ cs, 0x20 ≤ c.toNat := by
  obtain ⟨parts, hspells, -⟩ := h
  exact fun c hc => le_of_isNumberChar (hspells.isNumberChar c hc)

theorem le_of_mem_escapedChar {c d : Char} (h : d ∈ escapedChar c) : 0x20 ≤ d.toNat := by
  have hhex : ∀ n, n < 16 → 0x20 ≤ (hexDigit n).toNat := by decide
  unfold escapedChar at h
  iterate 7
    split at h
    · simp only [List.mem_cons, List.not_mem_nil, or_false] at h
      rcases h with rfl | rfl <;> decide
  split at h
  · next hcontrol =>
    simp only [List.mem_cons, List.not_mem_nil, or_false] at h
    rcases h with rfl | rfl | rfl | rfl | rfl | rfl
    · decide
    · decide
    · decide
    · decide
    · exact hhex _ (by omega)
    · exact hhex _ (by omega)
  · next hcontrol =>
    rw [List.mem_singleton.1 h]
    omega

theorem le_of_mem_textChars {s : String} {c : Char} (h : c ∈ textChars s) : 0x20 ≤ c.toNat := by
  simp only [textChars, List.cons_append, List.mem_cons, List.mem_append, List.mem_flatMap,
    List.not_mem_nil, or_false] at h
  rcases h with rfl | ⟨d, -, hc⟩ | rfl
  · decide
  · exact le_of_mem_escapedChar hc
  · decide

theorem NumberStyle.le_of_mem_chars {style : NumberStyle}
    (hf : style.format = .single ∨ style.format = .double) {w : Nat} {c : Char}
    (h : c ∈ style.chars w) : 0x20 ≤ c.toNat := by
  rcases content_spec hf w with ⟨-, hchars⟩ | ⟨q, -, hspells⟩
  · rw [hchars] at h
    exact le_of_mem_of_all (by decide) h
  · exact hspells.le_of_mem c h

mutual

/-- No character of a written value is a control character. -/
theorem le_of_mem_chars (value : Json) {c : Char} (h : c ∈ value.chars) : 0x20 ≤ c.toNat := by
  match value with
  | .null => exact le_of_mem_of_all (by decide) h
  | .bool true => exact le_of_mem_of_all (by decide) h
  | .bool false => exact le_of_mem_of_all (by decide) h
  | .integer n => exact (spellsNumber_integerChars n).le_of_mem c h
  | .single w => exact singleStyle.le_of_mem_chars (.inl rfl) h
  | .double w => exact doubleStyle.le_of_mem_chars (.inr rfl) h
  | .text s => exact le_of_mem_textChars h
  | .array [] => exact le_of_mem_of_all (by decide) h
  | .array (element :: elements) =>
    simp only [chars, List.cons_append, List.mem_cons, List.mem_append, List.not_mem_nil,
      or_false, or_assoc] at h
    rcases h with rfl | h | h | rfl
    · decide
    · exact le_of_mem_chars element h
    · exact le_of_mem_elementsChars elements h
    · decide
  | .object [] => exact le_of_mem_of_all (by decide) h
  | .object ((name, value) :: members) =>
    simp only [chars, List.cons_append, List.mem_cons, List.mem_append, List.not_mem_nil,
      or_false, or_assoc] at h
    rcases h with rfl | h | rfl | h | h | rfl
    · decide
    · exact le_of_mem_textChars h
    · decide
    · exact le_of_mem_chars value h
    · exact le_of_mem_membersChars members h
    · decide

theorem le_of_mem_elementsChars (elements : List Json) {c : Char} (h : c ∈ elementsChars elements) :
    0x20 ≤ c.toNat := by
  match elements with
  | [] => cases h
  | element :: elements =>
    simp only [elementsChars, List.cons_append, List.mem_cons, List.mem_append] at h
    rcases h with rfl | h | h
    · decide
    · exact le_of_mem_chars element h
    · exact le_of_mem_elementsChars elements h

theorem le_of_mem_membersChars (members : List (String × Json)) {c : Char}
    (h : c ∈ membersChars members) : 0x20 ≤ c.toNat := by
  match members with
  | [] => cases h
  | (name, value) :: members =>
    simp only [membersChars, List.cons_append, List.mem_cons, List.mem_append, or_assoc] at h
    rcases h with rfl | h | rfl | h | h
    · decide
    · exact le_of_mem_textChars h
    · decide
    · exact le_of_mem_chars value h
    · exact le_of_mem_membersChars members h

end

end Controls

end Logbook.Json
