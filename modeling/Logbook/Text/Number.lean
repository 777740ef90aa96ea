import Logbook.Text.Split

/-!
# Decimal numbers in texts

Reading of unsigned decimal numbers below a bound, and the two ways of filling
a number up to a width. `readDigits?` accepts nonempty runs of ASCII digits,
`readUnsigned?` also one plus sign before them.
-/

namespace Logbook.Text

/-- The value of an ASCII digit. -/
def digitValue (c : Char) : Nat := c.toNat - '0'.toNat

/-- The value of a run of digits, the most significant first. -/
def digitsValue (cs : List Char) : Nat :=
  cs.foldl (fun value c => 10 * value + digitValue c) 0

/-- The value of a text of one or more ASCII digits. -/
def readDigits? (cs : List Char) : Option Nat :=
  if cs ≠ [] ∧ cs.all Char.isDigit then some (digitsValue cs) else none

/-- The text without one leading plus sign. -/
def dropPlus : List Char → List Char
  | '+' :: cs => cs
  | cs => cs

/-- The value of one or more ASCII digits, with or without a plus sign before
    them, if it lies below `bound`. -/
def readUnsigned? (bound : Nat) (cs : List Char) : Option Nat :=
  (readDigits? (dropPlus cs)).filter (· < bound)

/-- The text with `fill` put before it until it has `width` characters. -/
def padStart (fill : Char) (width : Nat) (cs : List Char) : List Char :=
  List.replicate (width - cs.length) fill ++ cs

/-- The decimal digits of a number. -/
def digits (n : Nat) : List Char := Nat.toDigits 10 n

/-- The decimal digits of a number, filled with zeros up to a width. -/
def zeroPadded (width n : Nat) : List Char := padStart '0' width (digits n)

theorem digitsValue_append (xs ys : List Char) :
    digitsValue (xs ++ ys) =
      ys.foldl (fun value c => 10 * value + digitValue c) (digitsValue xs) := by
  simp [digitsValue, List.foldl_append]

/-- The value of a decimal digit is read back from its character. -/
theorem digitValue_digitChar {d : Nat} (h : d < 10) : digitValue d.digitChar = d := by
  match d, h with
  | 0, _ | 1, _ | 2, _ | 3, _ | 4, _ | 5, _ | 6, _ | 7, _ | 8, _ | 9, _ => decide

theorem isDigit_digitChar {d : Nat} (h : d < 10) : d.digitChar.isDigit = true := by
  match d, h with
  | 0, _ | 1, _ | 2, _ | 3, _ | 4, _ | 5, _ | 6, _ | 7, _ | 8, _ | 9, _ => decide

/-- The digits of a number have its value. -/
@[simp] theorem digitsValue_digits (n : Nat) : digitsValue (digits n) = n := by
  induction n using Nat.strongRecOn with
  | ind n ih =>
    unfold digits
    by_cases h : n < 10
    · rw [Nat.toDigits_of_lt_base h]
      simp [digitsValue, digitValue_digitChar h]
    · rw [Nat.toDigits_of_base_le (by omega) (by omega), digitsValue_append]
      have hlow := ih (n / 10) (by omega)
      unfold digits at hlow
      simp only [List.foldl_cons, List.foldl_nil, hlow,
        digitValue_digitChar (Nat.mod_lt n (by omega))]
      omega

theorem digits_injective {m n : Nat} (h : digits m = digits n) : m = n := by
  rw [← digitsValue_digits m, h, digitsValue_digits]

/-- The digits of a number are ASCII digits. -/
theorem isDigit_of_mem_digits {n : Nat} {c : Char} (h : c ∈ digits n) : c.isDigit = true := by
  induction n using Nat.strongRecOn with
  | ind n ih =>
    unfold digits at h ih
    by_cases hn : n < 10
    · rw [Nat.toDigits_of_lt_base hn] at h
      rw [List.mem_singleton.1 h]
      exact isDigit_digitChar hn
    · rw [Nat.toDigits_of_base_le (by omega) (by omega)] at h
      rcases List.mem_append.1 h with hlow | hlast
      · exact ih (n / 10) (by omega) hlow
      · rw [List.mem_singleton.1 hlast]
        exact isDigit_digitChar (Nat.mod_lt n (by omega))

theorem not_mem_digits {c : Char} (hc : c.isDigit = false) (n : Nat) : c ∉ digits n :=
  fun h => Bool.noConfusion (hc.symm.trans (isDigit_of_mem_digits h))

theorem digits_ne_nil (n : Nat) : digits n ≠ [] := by
  unfold digits
  by_cases h : n < 10
  · simp [Nat.toDigits_of_lt_base h]
  · simp [Nat.toDigits_of_base_le (b := 10) (n := n) (by omega) (by omega)]

theorem all_isDigit_digits (n : Nat) : (digits n).all Char.isDigit = true :=
  List.all_eq_true.2 fun _ hc => isDigit_of_mem_digits hc

/-- A written number is read back. -/
theorem readDigits?_digits (n : Nat) : readDigits? (digits n) = some n := by
  simp [readDigits?, all_isDigit_digits, digits_ne_nil]

theorem readDigits?_eq_some_iff {cs : List Char} {n : Nat} :
    readDigits? cs = some n ↔ cs ≠ [] ∧ cs.all Char.isDigit = true ∧ digitsValue cs = n := by
  unfold readDigits?
  split
  · next h => simp [h]
  · next h =>
    refine iff_of_false nofun fun hdigits => ?_
    exact h ⟨hdigits.1, hdigits.2.1⟩

/-- A run of digits needs no sign. -/
theorem readUnsigned?_of_readDigits? {bound n : Nat} {cs : List Char}
    (h : readDigits? cs = some n) (hlt : n < bound) : readUnsigned? bound cs = some n := by
  have hplus : dropPlus cs = cs := by
    unfold dropPlus
    split
    · next rest =>
      have hdigit : '+'.isDigit = true :=
        List.all_eq_true.1 (readDigits?_eq_some_iff.1 h).2.1 '+' List.mem_cons_self
      exact absurd hdigit (by decide)
    · rfl
  rw [readUnsigned?, hplus, h, Option.filter_some, if_pos (by simpa using hlt)]

/-- A written number below the bound is read back. -/
theorem readUnsigned?_digits {bound n : Nat} (h : n < bound) :
    readUnsigned? bound (digits n) = some n :=
  readUnsigned?_of_readDigits? (readDigits?_digits n) h

theorem readUnsigned?_lt {bound n : Nat} {cs : List Char} (h : readUnsigned? bound cs = some n) :
    n < bound := by
  simpa using (Option.filter_eq_some_iff.1 h).2

/-- What is read as a number is digits, with or without a plus sign, of a value below
    the bound. -/
theorem readUnsigned?_ne_none_iff {bound : Nat} {cs : List Char} :
    readUnsigned? bound cs ≠ none ↔
      ∃ ds, (cs = ds ∨ cs = '+' :: ds) ∧ ds ≠ [] ∧ (∀ c ∈ ds, c.isDigit = true) ∧
        digitsValue ds < bound := by
  have hread : readUnsigned? bound cs ≠ none ↔
      dropPlus cs ≠ [] ∧ (∀ c ∈ dropPlus cs, c.isDigit = true) ∧
        digitsValue (dropPlus cs) < bound := by
    unfold readUnsigned? readDigits?
    split
    · next h =>
      simp only [Option.filter_some, List.all_eq_true] at h ⊢
      split <;> simp_all
    · next h =>
      simp only [List.all_eq_true] at h
      simp only [Option.filter_none, ne_eq, not_true_eq_false, false_iff]
      exact fun hdigits => h ⟨hdigits.1, hdigits.2.1⟩
  rw [hread]
  constructor
  · intro h
    refine ⟨dropPlus cs, ?_, h⟩
    unfold dropPlus
    split
    · exact .inr rfl
    · exact .inl rfl
  · rintro ⟨ds, rfl | rfl, hne, hdigits, hlt⟩
    · have hplus : dropPlus cs = cs := by
        unfold dropPlus
        split
        · exact absurd (hdigits '+' List.mem_cons_self) (by decide)
        · rfl
      rw [hplus]
      exact ⟨hne, hdigits, hlt⟩
    · exact ⟨hne, hdigits, hlt⟩

end Logbook.Text
