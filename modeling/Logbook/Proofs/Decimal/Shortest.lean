import Mathlib.Algebra.Order.Field.Power
import Mathlib.Algebra.Order.Field.Rat
import Mathlib.Tactic.NormNum
import Mathlib.Tactic.Positivity
import Mathlib.Tactic.Ring
import Logbook.Decimal.Shortest

/-!
# The digits of a shortest decimal

A shortest decimal begins with a digit other than zero. `Format.proper_shortest`
says so for every number of either precision that is not zero: a multiple of a
power of ten that lies in the interval of the number is none of zero, and the
grid of the last round lies below the number.
-/

namespace Logbook.Decimal

/-- The digits are digits, and the first of them is not zero. -/
structure Digits.Proper (d : Digits) : Prop where
  isDigit : ∀ c ∈ d.digits, c.isDigit = true
  lead : ∃ first rest, d.digits = first :: rest ∧ first ≠ '0'

theorem lead_digits {n : Nat} (h : 0 < n) :
    ∃ first rest, Text.digits n = first :: rest ∧ first ≠ '0' := by
  induction n using Nat.strongRecOn with
  | ind n ih =>
    unfold Text.digits at ih ⊢
    by_cases hn : n < 10
    · rw [Nat.toDigits_of_lt_base hn]
      refine ⟨n.digitChar, [], rfl, ?_⟩
      intro hzero
      have hvalue := Text.digitValue_digitChar hn
      rw [hzero] at hvalue
      have : Text.digitValue '0' = 0 := by decide
      omega
    · rw [Nat.toDigits_of_base_le (by omega) (by omega)]
      obtain ⟨first, rest, hdigits, hfirst⟩ := ih (n / 10) (by omega) (by omega)
      exact ⟨first, rest ++ [(n % 10).digitChar], by rw [hdigits]; rfl, hfirst⟩

/-- A first digit other than zero is no zero at the end. -/
theorem dropTrailingZeros_cons {first : Char} (h : first ≠ '0') (rest : List Char) :
    dropTrailingZeros (first :: rest) = first :: dropTrailingZeros rest := by
  unfold dropTrailingZeros
  rw [List.reverse_cons, List.dropWhile_append]
  split
  · next hempty => simp [List.isEmpty_iff.1 hempty, h]
  · simp

theorem Digits.proper_ofScaled {n : Nat} (h : 0 < n) (p : Int) : (Digits.ofScaled n p).Proper where
  isDigit := by
    intro c hc
    have hmem : c ∈ Text.digits n := by
      have hdropped := (List.dropWhile_sublist _).subset (List.mem_reverse.1 hc)
      exact List.mem_reverse.1 hdropped
    exact Text.isDigit_of_mem_digits hmem
  lead := by
    obtain ⟨first, rest, hdigits, hfirst⟩ := lead_digits h
    refine ⟨first, dropTrailingZeros rest, ?_, hfirst⟩
    show dropTrailingZeros (Text.digits n) = _
    rw [hdigits, dropTrailingZeros_cons hfirst]

/-- The fraction for a power of ten. -/
theorem tenPower_eq (p : Int) :
    0 < (tenPower p).1 ∧ 0 < (tenPower p).2 ∧
      (10 : Rat) ^ p * (tenPower p).2 = (tenPower p).1 := by
  cases p with
  | ofNat k => simp [tenPower]
  | negSucc k =>
    refine ⟨by simp [tenPower], by simp [tenPower], ?_⟩
    simp [tenPower, zpow_negSucc]

/-- The fraction for a power of two. -/
theorem scaled_one_eq (e : Int) :
    0 < (scaled 1 e).1 ∧ 0 < (scaled 1 e).2 ∧ (2 : Rat) ^ e * (scaled 1 e).2 = (scaled 1 e).1 := by
  cases e with
  | ofNat k => simp [scaled]
  | negSucc k =>
    refine ⟨by simp [scaled], by simp [scaled], ?_⟩
    simp [scaled, zpow_negSucc]

theorem Tie.le_choose (tie : Tie) (below : Nat) : below ≤ tie.choose below := by
  cases tie <;> simp [choose]

namespace Interval

variable {i : Interval} {tie : Tie} {p : Int} {n : Nat}

/-- Where the interval lies above zero, so do the multiples in it. -/
theorem onGrid?_pos (hlow : 0 < i.low) (h : i.onGrid? tie p = some n) : 0 < n := by
  have hzero : i.contains (0 * (tenPower p).1) (tenPower p).2 = false := by
    have hden : 0 < (tenPower p).2 := (tenPower_eq p).2.1
    have hpos : 0 < i.low * (tenPower p).2 := Nat.mul_pos hlow hden
    unfold contains
    split
    · simp
      omega
    · simp
  unfold onGrid? at h
  simp only at h
  generalize i.value * (tenPower p).2 / (i.denominator * (tenPower p).1) = below at h
  have hbelow : i.contains (below * (tenPower p).1) (tenPower p).2 = true → 0 < below := by
    intro hcontains
    by_contra hpos
    obtain rfl : below = 0 := by omega
    rw [hzero] at hcontains
    cases hcontains
  split at h
  · next hmem _ =>
    have hpos := hbelow hmem
    have hchoose := tie.le_choose below
    cases h
    split
    · exact hpos
    · split <;> omega
  · next hmem _ =>
    cases h
    exact hbelow hmem
  · cases h
    omega
  · cases h

/-- A search yields no zero, unless the number lies below all of its grids. -/
theorem search_pos (hlow : 0 < i.low) (fuel : Nat) (p : Int)
    (hlast : 0 < i.value * (tenPower (p - fuel)).2 / (i.denominator * (tenPower (p - fuel)).1)) :
    0 < (i.search tie fuel p).1 := by
  induction fuel generalizing p with
  | zero => simpa [search] using hlast
  | succ fuel ih =>
    unfold search
    split
    · next n hn => exact onGrid?_pos hlow hn
    -- the further search ends on the same grid
    · refine ih (p - 1) ?_
      have hgrid : p - 1 - (fuel : Int) = p - ((fuel + 1 : Nat) : Int) := by omega
      rw [hgrid]
      exact hlast

end Interval

/-- A power of ten lies below a power of two of three and a third times its exponent,
    and somewhat more for an exponent below zero. -/
theorem ten_zpow_le_two_zpow {p l : Int} (hlow : -1100 ≤ l) (hhigh : l ≤ 1100)
    (hp : p ≤ l * 30103 / 100000 - 20) : (10 : Rat) ^ p ≤ (2 : Rat) ^ l := by
  -- 10 ^ 3 lies below 2 ^ 10 and 2 ^ 13 below 10 ^ 4, close enough for these exponents
  by_cases hl : 0 ≤ l
  · obtain ⟨k, hk⟩ := Int.eq_ofNat_of_zero_le (show 0 ≤ l / 10 by omega)
    calc (10 : Rat) ^ p ≤ (10 : Rat) ^ (3 * (k : Int)) :=
          zpow_le_zpow_right₀ (by norm_num) (by omega)
      _ = ((10 : Rat) ^ (3 : Nat)) ^ k := by rw [← pow_mul]; exact_mod_cast rfl
      _ ≤ ((2 : Rat) ^ (10 : Nat)) ^ k := pow_le_pow_left₀ (by norm_num) (by norm_num) k
      _ = (2 : Rat) ^ (10 * (k : Int)) := by rw [← pow_mul]; exact_mod_cast rfl
      _ ≤ (2 : Rat) ^ l := zpow_le_zpow_right₀ (by norm_num) (by omega)
  · obtain ⟨k, hk⟩ := Int.eq_ofNat_of_zero_le (show 0 ≤ -(l / 13) by omega)
    calc (10 : Rat) ^ p ≤ (10 : Rat) ^ (-(4 * (k : Int))) :=
          zpow_le_zpow_right₀ (by norm_num) (by omega)
      _ = (((10 : Rat) ^ (4 : Nat)) ^ k)⁻¹ := by
          rw [zpow_neg, ← pow_mul]
          exact_mod_cast rfl
      _ ≤ (((2 : Rat) ^ (13 : Nat)) ^ k)⁻¹ := by
          refine inv_anti₀ (by positivity) ?_
          exact pow_le_pow_left₀ (by norm_num) (by norm_num) k
      _ = (2 : Rat) ^ (-(13 * (k : Int))) := by
          rw [zpow_neg, ← pow_mul]
          exact_mod_cast rfl
      _ ≤ (2 : Rat) ^ l := zpow_le_zpow_right₀ (by norm_num) (by omega)

namespace Format

variable {f : Format} {w mantissa : Nat} {exponent : Int} {negative : Bool}

/-- The size of the parts of a number. -/
theorem decode_finite (h : f.decode w = .finite negative mantissa exponent) :
    mantissa < 2 ^ (f.fractionBits + 1) ∧ f.minExponent ≤ exponent ∧
      exponent < f.minExponent + 2 ^ f.exponentBits := by
  have hfraction : w % 2 ^ f.fractionBits < 2 ^ f.fractionBits := Nat.mod_lt _ (by positivity)
  have hfield : w / 2 ^ f.fractionBits % 2 ^ f.exponentBits < 2 ^ f.exponentBits :=
    Nat.mod_lt _ (by positivity)
  have hdouble : 2 ^ (f.fractionBits + 1) = 2 * 2 ^ f.fractionBits := by rw [pow_succ]; omega
  unfold decode at h
  simp only [Nat.pow_eq] at h
  split at h
  · split at h <;> cases h
  · split at h
    · cases h
      refine ⟨by omega, le_refl _, ?_⟩
      have : (0 : Int) < 2 ^ f.exponentBits := by positivity
      omega
    · next hzero =>
      cases h
      refine ⟨by omega, by omega, ?_⟩
      have hfield' : ((w / 2 ^ f.fractionBits % 2 ^ f.exponentBits : Nat) : Int) <
          2 ^ f.exponentBits := by exact_mod_cast hfield
      omega

theorem log2_bounds (hf : f = .single ∨ f = .double)
    (h : f.decode w = .finite negative mantissa exponent) (hm : mantissa ≠ 0) :
    -1100 ≤ (mantissa.log2 : Int) + exponent ∧ (mantissa.log2 : Int) + exponent ≤ 1100 := by
  obtain ⟨hmantissa, hlow, hhigh⟩ := decode_finite h
  have hlog := (Nat.log2_lt hm).2 hmantissa
  rcases hf with rfl | rfl
  · rw [show single.minExponent = -149 by decide] at hlow hhigh
    rw [show single.fractionBits = 23 from rfl] at hlog
    rw [show single.exponentBits = 8 from rfl] at hhigh
    omega
  · rw [show double.minExponent = -1074 by decide] at hlow hhigh
    rw [show double.fractionBits = 52 from rfl] at hlog
    rw [show double.exponentBits = 11 from rfl] at hhigh
    omega

/-- On the last grid of the search for its digits the number is at least one. -/
theorem last_grid_pos (hf : f = .single ∨ f = .double)
    (h : f.decode w = .finite negative mantissa exponent) (hm : mantissa ≠ 0) {p : Int}
    (hp : p = (mantissa.log2 + exponent) * 30103 / 100000 - 20) :
    0 < (f.interval mantissa exponent).value * (tenPower p).2 /
      ((f.interval mantissa exponent).denominator * (tenPower p).1) := by
  obtain ⟨hlow, hhigh⟩ := log2_bounds hf h hm
  obtain ⟨hnum, hden, hten⟩ := tenPower_eq p
  obtain ⟨-, hunit, htwo⟩ := scaled_one_eq (exponent - 2)
  refine Nat.div_pos ?_ (Nat.mul_pos hunit hnum)
  have hpower : (10 : Rat) ^ p ≤ mantissa * (2 : Rat) ^ exponent := by
    calc (10 : Rat) ^ p ≤ (2 : Rat) ^ ((mantissa.log2 : Int) + exponent) :=
          ten_zpow_le_two_zpow hlow hhigh (le_of_eq hp)
      _ = (2 : Rat) ^ mantissa.log2 * (2 : Rat) ^ exponent := by
          rw [zpow_add₀ (by norm_num), zpow_natCast]
      _ ≤ mantissa * (2 : Rat) ^ exponent := by
          refine mul_le_mul_of_nonneg_right ?_ (by positivity)
          exact_mod_cast Nat.log2_self_le hm
  have hquarter : (2 : Rat) ^ exponent = 4 * (2 : Rat) ^ (exponent - 2) := by
    rw [zpow_sub₀ (by norm_num)]
    norm_num
    ring
  have hcast : (((scaled 1 (exponent - 2)).2 * (tenPower p).1 : Nat) : Rat) ≤
      ((4 * mantissa * (scaled 1 (exponent - 2)).1 * (tenPower p).2 : Nat) : Rat) := by
    push_cast
    rw [← hten, ← htwo]
    calc ((scaled 1 (exponent - 2)).2 : Rat) * ((10 : Rat) ^ p * (tenPower p).2)
        = (10 : Rat) ^ p * ((scaled 1 (exponent - 2)).2 * (tenPower p).2) := by ring
      _ ≤ mantissa * (2 : Rat) ^ exponent * ((scaled 1 (exponent - 2)).2 * (tenPower p).2) :=
          mul_le_mul_of_nonneg_right hpower (by positivity)
      _ = 4 * mantissa * ((2 : Rat) ^ (exponent - 2) * (scaled 1 (exponent - 2)).2) *
            (tenPower p).2 := by rw [hquarter]; ring
  exact_mod_cast hcast

/-- The shortest decimal of a number that is not zero begins with another digit. -/
theorem proper_shortest (hf : f = .single ∨ f = .double)
    (h : f.decode w = .finite negative mantissa exponent) (hm : mantissa ≠ 0) (tie : Tie) :
    (f.shortest tie mantissa exponent).Proper := by
  have hlow : 0 < (f.interval mantissa exponent).low := by
    refine Nat.mul_pos ?_ (scaled_one_eq (exponent - 2)).1
    split <;> omega
  have hlast := last_grid_pos hf h hm
    (p := (mantissa.log2 + exponent) * 30103 / 100000 + 2 - (22 : Nat)) (by omega)
  exact Digits.proper_ofScaled (Interval.search_pos hlow 22 _ hlast) _

end Format

end Logbook.Decimal
