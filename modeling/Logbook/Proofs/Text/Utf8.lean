import Logbook.Text.Utf8

/-!
# The octets of a text

A text is read back from its octets, in `decode?_encode`, and its octets are no
control characters unless it holds one, in `le_of_mem_encode`.
-/

namespace Logbook.Text.Utf8

section Steps

variable {a b c d : UInt8} {rest : List UInt8}

theorem step_one (h : a.toNat ≤ 0x7f) : step a rest = (some (Char.ofNat a.toNat), rest) := by
  have hfirst : a ≤ 0x7f := h
  unfold step
  rw [if_pos hfirst]

theorem step_two (ha : 0xc2 ≤ a.toNat ∧ a.toNat ≤ 0xdf) (hb : isTail b = true) :
    step a (b :: rest) = (some (Char.ofNat (a.toNat % 32 * 64 + tailBits b)), rest) := by
  have hone : ¬ a ≤ 0x7f := by
    rw [UInt8.le_iff_toNat_le]
    exact fun h => absurd (Nat.le_trans ha.1 h) (by decide)
  have htwo : (0xc2 ≤ a && a ≤ 0xdf) = true := by simpa [UInt8.le_iff_toNat_le] using ha
  unfold step
  rw [if_neg hone, if_pos htwo]
  simp only [hb, if_true]

theorem step_three (ha : 0xe0 ≤ a.toNat ∧ a.toNat ≤ 0xef) (hb : isSecondOfThree a b = true)
    (hc : isTail c = true) :
    step a (b :: c :: rest) =
      (some (Char.ofNat ((a.toNat % 16 * 64 + tailBits b) * 64 + tailBits c)), rest) := by
  have hone : ¬ a ≤ 0x7f := by
    rw [UInt8.le_iff_toNat_le]
    exact fun h => absurd (Nat.le_trans ha.1 h) (by decide)
  have htwo : ¬ (0xc2 ≤ a && a ≤ 0xdf) = true := by
    simp [UInt8.le_iff_toNat_le]
    omega
  have hthree : (0xe0 ≤ a && a ≤ 0xef) = true := by simpa [UInt8.le_iff_toNat_le] using ha
  unfold step
  rw [if_neg hone, if_neg htwo, if_pos hthree]
  simp only [hb, hc, if_true]

theorem step_four (ha : 0xf0 ≤ a.toNat ∧ a.toNat ≤ 0xf4) (hb : isSecondOfFour a b = true)
    (hc : isTail c = true) (hd : isTail d = true) :
    step a (b :: c :: d :: rest) =
      (some (Char.ofNat (((a.toNat % 8 * 64 + tailBits b) * 64 + tailBits c) * 64 + tailBits d)),
        rest) := by
  have hone : ¬ a ≤ 0x7f := by
    rw [UInt8.le_iff_toNat_le]
    exact fun h => absurd (Nat.le_trans ha.1 h) (by decide)
  have htwo : ¬ (0xc2 ≤ a && a ≤ 0xdf) = true := by
    simp [UInt8.le_iff_toNat_le]
    omega
  have hthree : ¬ (0xe0 ≤ a && a ≤ 0xef) = true := by
    simp [UInt8.le_iff_toNat_le]
    omega
  have hfour : (0xf0 ≤ a && a ≤ 0xf4) = true := by simpa [UInt8.le_iff_toNat_le] using ha
  unfold step
  rw [if_neg hone, if_neg htwo, if_neg hthree, if_pos hfour]
  simp only [hb, hc, hd, if_true]

end Steps

theorem toNat_octet {n : Nat} (h : n < 256) : (UInt8.ofNat n).toNat = n := by
  rw [UInt8.toNat_ofNat']
  omega

theorem isTail_octet {n : Nat} (h : n < 64) : isTail (UInt8.ofNat (n + 128)) = true := by
  simp [isTail, UInt8.le_iff_toNat_le]
  omega

theorem tailBits_octet {n : Nat} (h : n < 64) : tailBits (UInt8.ofNat (n + 128)) = n := by
  rw [tailBits, toNat_octet (by omega)]
  omega

/-- The second octet excludes longer forms than needed, and the halves of characters. -/
theorem isSecondOfThree_octet {m n : Nat} (hm : m < 16) (hn : n < 64) (hlong : m = 0 → 32 ≤ n)
    (hhalf : m = 13 → n < 32) :
    isSecondOfThree (UInt8.ofNat (m + 224)) (UInt8.ofNat (n + 128)) = true := by
  have htail := isTail_octet hn
  have hfirst := toNat_octet (n := m + 224) (by omega)
  have hsecond := toNat_octet (n := n + 128) (by omega)
  simp only [isSecondOfThree, htail, Bool.or_eq_true, Bool.and_eq_true, beq_iff_eq, bne_iff_ne,
    decide_eq_true_eq, ← UInt8.toNat_inj, UInt8.le_iff_toNat_le, ne_eq, hfirst, hsecond,
    UInt8.reduceToNat, and_true]
  omega

/-- The second octet excludes longer forms than needed, and what lies beyond the last
    character. -/
theorem isSecondOfFour_octet {m n : Nat} (hm : m < 5) (hn : n < 64) (hlong : m = 0 → 16 ≤ n)
    (hbeyond : m = 4 → n < 16) :
    isSecondOfFour (UInt8.ofNat (m + 240)) (UInt8.ofNat (n + 128)) = true := by
  have htail := isTail_octet hn
  have hfirst := toNat_octet (n := m + 240) (by omega)
  have hsecond := toNat_octet (n := n + 128) (by omega)
  simp only [isSecondOfFour, htail, Bool.or_eq_true, Bool.and_eq_true, beq_iff_eq, bne_iff_ne,
    decide_eq_true_eq, ← UInt8.toNat_inj, UInt8.le_iff_toNat_le, ne_eq, hfirst, hsecond,
    UInt8.reduceToNat, and_true]
  omega

/-- A character is read back from its octets, whatever follows them. -/
theorem step_utf8EncodeChar (c : Char) (rest : List UInt8) :
    ∃ a tail, String.utf8EncodeChar c = a :: tail ∧ step a (tail ++ rest) = (some c, rest) := by
  have hvalid : c.val.toNat < 0xd800 ∨ 0xdfff < c.val.toNat ∧ c.val.toNat < 0x110000 := c.valid
  have hc : Char.ofNat c.val.toNat = c := Char.ofNat_toNat c
  unfold String.utf8EncodeChar
  simp only
  generalize c.val.toNat = v at hvalid hc
  -- a bound on the character at each length, and with it the first octets of that length
  split
  · next hone =>
    refine ⟨_, _, rfl, ?_⟩
    have ha := toNat_octet (n := v) (by omega)
    rw [List.nil_append, step_one (by omega), ha, hc]
  · split
    · next hone htwo =>
      refine ⟨_, _, rfl, ?_⟩
      have ha := toNat_octet (n := v / 64 % 32 + 192) (by omega)
      have hvalue : (v / 64 % 32 + 192) % 32 * 64 + v % 64 = v := by omega
      rw [List.cons_append, List.nil_append,
        step_two (by omega) (isTail_octet (by omega)), ha, tailBits_octet (by omega), hvalue, hc]
    · split
      · next hone htwo hthree =>
        refine ⟨_, _, rfl, ?_⟩
        have ha := toNat_octet (n := v / 4096 % 16 + 224) (by omega)
        have hvalue :
            ((v / 4096 % 16 + 224) % 16 * 64 + v / 64 % 64) * 64 + v % 64 = v := by omega
        rw [List.cons_append, List.cons_append, List.nil_append,
          step_three (by omega)
            (isSecondOfThree_octet (by omega) (by omega) (by omega) (by omega))
            (isTail_octet (by omega)),
          ha, tailBits_octet (by omega), tailBits_octet (by omega), hvalue, hc]
      · next hone htwo hthree =>
        refine ⟨_, _, rfl, ?_⟩
        have ha := toNat_octet (n := v / 262144 % 8 + 240) (by omega)
        have hvalue :
            (((v / 262144 % 8 + 240) % 8 * 64 + v / 4096 % 64) * 64 + v / 64 % 64) * 64 +
              v % 64 = v := by omega
        rw [List.cons_append, List.cons_append, List.cons_append, List.nil_append,
          step_four (by omega)
            (isSecondOfFour_octet (by omega) (by omega) (by omega) (by omega))
            (isTail_octet (by omega)) (isTail_octet (by omega)),
          ha, tailBits_octet (by omega), tailBits_octet (by omega), tailBits_octet (by omega),
          hvalue, hc]

/-- A text is read back from its octets. -/
theorem decode?_encode (s : String) : decode? (encode s) = some s.toList := by
  unfold encode
  induction s.toList with
  | nil => simp [decode?]
  | cons c cs ih =>
    obtain ⟨a, tail, hencoded, hstep⟩ :=
      step_utf8EncodeChar c (cs.flatMap String.utf8EncodeChar)
    rw [List.flatMap_cons, hencoded, List.cons_append, decode?, hstep]
    simp [ih]

/-- Octets below a bound within the first half come from characters below it. -/
theorem le_of_mem_utf8EncodeChar {c : Char} {n : Nat} (hn : n ≤ 0x80) (hc : n ≤ c.toNat)
    {b : UInt8} (hb : b ∈ String.utf8EncodeChar c) : n ≤ b.toNat := by
  have hc' : n ≤ c.val.toNat := hc
  unfold String.utf8EncodeChar at hb
  simp only at hb
  generalize c.val.toNat = v at hc' hb
  split at hb
  · next hone =>
    rw [List.mem_singleton.1 hb, toNat_octet (by omega)]
    exact hc'
  · split at hb
    · simp only [List.mem_cons, List.not_mem_nil, or_false] at hb
      rcases hb with rfl | rfl <;> rw [toNat_octet (by omega)] <;> omega
    · split at hb
      · simp only [List.mem_cons, List.not_mem_nil, or_false] at hb
        rcases hb with rfl | rfl | rfl <;> rw [toNat_octet (by omega)] <;> omega
      · simp only [List.mem_cons, List.not_mem_nil, or_false] at hb
        rcases hb with rfl | rfl | rfl | rfl <;> rw [toNat_octet (by omega)] <;> omega

theorem le_of_mem_encode {s : String} {n : Nat} (hn : n ≤ 0x80) (hs : ∀ c ∈ s.toList, n ≤ c.toNat)
    {b : UInt8} (hb : b ∈ encode s) : n ≤ b.toNat := by
  obtain ⟨c, hc, hmem⟩ := List.mem_flatMap.1 hb
  exact le_of_mem_utf8EncodeChar hn (hs c hc) hmem

end Logbook.Text.Utf8
