import Logbook.Json.Writer
import Logbook.Proofs.Decimal.Shortest
import Logbook.Proofs.Json.Token

/-!
# Written numbers

Whole numbers and decimals are written as the grammar of numbers has it, and
what is written has their value: `spellsNumber_integerChars` for a whole number,
`spellsNumber_positional` and `spellsNumber_scientific` for a decimal in either
form.
-/

namespace Logbook

namespace Text

theorem digitsValue_replicate_append (k : Nat) (ds : List Char) :
    digitsValue (List.replicate k '0' ++ ds) = digitsValue ds := by
  induction k with
  | zero => rfl
  | succ k ih => exact ih

theorem digitsValue_append_replicate (ds : List Char) (k : Nat) :
    digitsValue (ds ++ List.replicate k '0') = digitsValue ds * 10 ^ k := by
  induction k with
  | zero => simp
  | succ k ih =>
    rw [List.replicate_succ', ← List.append_assoc, digitsValue_append, ih]
    have hzero : digitValue '0' = 0 := by decide
    simp only [List.foldl_cons, List.foldl_nil, hzero, pow_succ]
    ring

end Text

namespace Decimal.Digits

variable {d : Digits}

/-- The number that the decimal is. -/
def value (d : Digits) : Rat :=
  Text.digitsValue d.digits * (10 : Rat) ^ (d.exponent - ((d.digits.length - 1 : Nat) : Int))

theorem Proper.length_pos (h : d.Proper) : 0 < d.digits.length := by
  obtain ⟨first, rest, hdigits, -⟩ := h.lead
  simp [hdigits]

end Decimal.Digits

namespace Json

open Decimal (Digits signed)

/-- The characters are the number, as the grammar of numbers has it. -/
def SpellsNumber (q : Rat) (cs : List Char) : Prop :=
  ∃ parts : NumberParts, parts.Spells cs ∧ parts.exact = q

theorem isDigits_digits (n : Nat) : IsDigits (Text.digits n) :=
  ⟨Text.digits_ne_nil n, fun _ hc => Text.isDigit_of_mem_digits hc⟩

theorem isDigits_zero : IsDigits ['0'] := isDigits_digits 0

theorem spellsNumber_integerChars (n : Int) : SpellsNumber n (integerChars n) := by
  have hlead : ∀ k : Nat, (Text.digits k).head? = some '0' → Text.digits k = ['0'] := by
    intro k hzero
    by_cases hk : 0 < k
    · obtain ⟨first, rest, hdigits, hfirst⟩ := Decimal.lead_digits hk
      rw [hdigits] at hzero
      exact absurd (Option.some.inj hzero) hfirst
    · obtain rfl : k = 0 := by omega
      rfl
  have hspells : ∀ (negative : Bool) (k : Nat),
      SpellsNumber (signFactor negative * k) (signed negative (Text.digits k)) := by
    intro negative k
    refine ⟨⟨negative, Text.digits k, none, none⟩, ⟨isDigits_digits k, hlead k, ?_, ?_⟩, ?_⟩
    · intro ds hds
      cases hds
    · exact ⟨[], .none, by simp [NumberParts.fractionChars]⟩
    · simp [NumberParts.exact]
  cases n with
  | ofNat k => simpa [signFactor, signed, integerChars] using hspells false k
  | negSucc k =>
    have hvalue : ((Int.negSucc k : Int) : Rat) = signFactor true * ((k + 1 : Nat) : Rat) := by
      simp [signFactor]
    rw [hvalue]
    exact hspells true (k + 1)

theorem isDigits_of_proper {d : Digits} (h : d.Proper) : IsDigits d.digits :=
  ⟨List.ne_nil_of_length_pos h.length_pos, h.isDigit⟩

/-- Digits on both sides of a point. -/
theorem spellsNumber_point {whole fraction : List Char} (negative : Bool)
    (hwhole : IsDigits whole) (hlead : whole.head? = some '0' → whole = ['0'])
    (hfraction : IsDigits fraction) :
    SpellsNumber (signFactor negative *
        (Text.digitsValue (whole ++ fraction) * (10 : Rat) ^ (-(fraction.length : Int))))
      (signed negative (whole ++ '.' :: fraction)) := by
  refine ⟨⟨negative, whole, some fraction, none⟩, ⟨hwhole, hlead, ?_, [], .none, ?_⟩, ?_⟩
  · intro ds hds
    cases hds
    exact hfraction
  · simp [NumberParts.fractionChars]
  · simp [NumberParts.exact]

/-- The positional form of a decimal is the decimal. -/
theorem spellsNumber_positional {d : Digits} (h : d.Proper) (negative : Bool) :
    SpellsNumber (signFactor negative * d.value) (signed negative (d.positional ['.', '0'])) := by
  have hlength := h.length_pos
  have hdigits := isDigits_of_proper h
  have hzeros : ∀ k, ∀ c ∈ List.replicate k '0', c.isDigit = true := by
    intro k c hc
    rw [(List.mem_replicate.1 hc).2]
    decide
  obtain ⟨first, rest, hfirst, hne⟩ := h.lead
  unfold Digits.positional Digits.value
  cases hexponent : d.exponent with
  | negSucc k =>
    -- below one, zeros come behind the point
    have hfraction : IsDigits (List.replicate k '0' ++ d.digits) :=
      ⟨by simp [hfirst], fun c hc => (List.mem_append.1 hc).elim (hzeros k c) (hdigits.2 c)⟩
    have hspells := spellsNumber_point negative isDigits_zero (fun _ => rfl) hfraction
    have hvalue : Text.digitsValue (['0'] ++ (List.replicate k '0' ++ d.digits)) =
        Text.digitsValue d.digits := Text.digitsValue_replicate_append (k + 1) d.digits
    have hplace : (-((List.replicate k '0' ++ d.digits).length : Int)) =
        Int.negSucc k - ((d.digits.length - 1 : Nat) : Int) := by
      rw [List.length_append, List.length_replicate]
      omega
    rw [hvalue, hplace] at hspells
    exact hspells
  | ofNat k =>
    simp only
    split
    · next hshort =>
      -- a whole number is filled up with zeros, and has one behind the point
      have hwhole : IsDigits (d.digits ++ List.replicate (k + 1 - d.digits.length) '0') :=
        ⟨by simp [hfirst], fun c hc => (List.mem_append.1 hc).elim (hdigits.2 c) (hzeros _ c)⟩
      have hspells := spellsNumber_point negative hwhole (by simp [hfirst, hne]) isDigits_zero
      have hvalue : (Text.digitsValue (d.digits ++
            List.replicate (k + 1 - d.digits.length) '0' ++ ['0']) : Rat) *
            (10 : Rat) ^ (-((['0'] : List Char).length : Int)) =
          Text.digitsValue d.digits *
            (10 : Rat) ^ (Int.ofNat k - ((d.digits.length - 1 : Nat) : Int)) := by
        have hplace : Int.ofNat k - ((d.digits.length - 1 : Nat) : Int) =
            ((k + 1 - d.digits.length : Nat) : Int) := by
          rw [Int.ofNat_eq_natCast]
          omega
        rw [hplace, List.append_assoc, ← List.replicate_succ', Text.digitsValue_append_replicate,
          zpow_natCast]
        push_cast
        rw [pow_succ]
        simp
        ring
      rw [hvalue] at hspells
      exact hspells
    · next hlong =>
      have htake : IsDigits (d.digits.take (k + 1)) :=
        ⟨by simp [hfirst], fun c hc => hdigits.2 c (List.mem_of_mem_take hc)⟩
      have hdrop : IsDigits (d.digits.drop (k + 1)) := by
        refine ⟨?_, fun c hc => hdigits.2 c (List.mem_of_mem_drop hc)⟩
        intro hnil
        exact hlong (List.drop_eq_nil_iff.1 hnil)
      have hspells := spellsNumber_point negative htake (by simp [hfirst, hne]) hdrop
      have hplace : (-((d.digits.drop (k + 1)).length : Int)) =
          Int.ofNat k - ((d.digits.length - 1 : Nat) : Int) := by
        rw [List.length_drop, Int.ofNat_eq_natCast]
        omega
      rw [List.take_append_drop, hplace] at hspells
      exact hspells

/-- The exponent of a scientific form, behind its significand. -/
theorem exists_scientific (d : Digits) :
    ∃ behind, SpellsExponent (some d.exponent) ('e' :: behind) ∧
      (∀ first, d.digits = [first] → d.scientific = first :: 'e' :: behind) ∧
      ∀ first second rest, d.digits = first :: second :: rest →
        d.scientific = first :: '.' :: second :: rest ++ 'e' :: behind := by
  unfold Digits.scientific
  cases d.exponent with
  | negSucc k =>
    have hminus : SpellsExponent _ ('e' :: '-' :: Text.digits (k + 1)) :=
      .minus (.inl rfl) (isDigits_digits (k + 1))
    rw [Text.digitsValue_digits] at hminus
    exact ⟨_, hminus, fun _ h => by rw [h]; rfl, fun _ _ _ h => by rw [h]⟩
  | ofNat k =>
    have hplus : SpellsExponent _ ('e' :: '+' :: Text.digits k) :=
      .plus (.inl rfl) (isDigits_digits k)
    rw [Text.digitsValue_digits] at hplus
    exact ⟨_, hplus, fun _ h => by rw [h]; rfl, fun _ _ _ h => by rw [h]⟩

/-- The scientific form of a decimal is the decimal. -/
theorem spellsNumber_scientific {d : Digits} (h : d.Proper) (negative : Bool) :
    SpellsNumber (signFactor negative * d.value) (signed negative d.scientific) := by
  have hdigits := isDigits_of_proper h
  obtain ⟨first, rest, hfirst, hne⟩ := h.lead
  obtain ⟨behind, hexponent, hone, hmore⟩ := exists_scientific d
  have hwhole : IsDigits [first] :=
    ⟨by simp, fun c hc => hdigits.2 c (by rw [hfirst, List.mem_singleton.1 hc]; simp)⟩
  cases rest with
  | nil =>
    rw [hone first hfirst]
    refine ⟨⟨negative, [first], none, some d.exponent⟩,
      ⟨hwhole, by simp [hne], by simp, _, hexponent, rfl⟩, ?_⟩
    simp [NumberParts.exact, Digits.value, hfirst]
  | cons second rest =>
    rw [hmore first second rest hfirst]
    have hfraction : IsDigits (second :: rest) :=
      ⟨by simp, fun c hc => hdigits.2 c (by rw [hfirst]; exact List.mem_cons_of_mem _ hc)⟩
    refine ⟨⟨negative, [first], some (second :: rest), some d.exponent⟩,
      ⟨hwhole, by simp [hne], ?_, _, hexponent, rfl⟩, ?_⟩
    · intro ds hds
      cases hds
      exact hfraction
    · simp [NumberParts.exact, Digits.value, hfirst]

end Json

end Logbook
