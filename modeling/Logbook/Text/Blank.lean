/-!
# Blank characters

The characters that carry the Unicode property `White_Space`, and the removal
of runs of them from the ends of a text. `isBlank` is the property,
`trim`, `trimStart` and `trimEnd` remove blank runs, and `isAllBlank` holds of
a text that `trim` makes empty.
-/

namespace Logbook.Text

/-- The character carries the Unicode property `White_Space`. -/
def isBlank (c : Char) : Bool :=
  (0x09 ≤ c.val && c.val ≤ 0x0d) || c.val == 0x20 || c.val == 0x85 || c.val == 0xa0 ||
  c.val == 0x1680 || (0x2000 ≤ c.val && c.val ≤ 0x200a) || c.val == 0x2028 ||
  c.val == 0x2029 || c.val == 0x202f || c.val == 0x205f || c.val == 0x3000

/-- The character is an ASCII space, tab, line feed, form feed or carriage
    return. -/
def isAsciiBlank (c : Char) : Bool :=
  c == ' ' || c == '\t' || c == '\n' || c == '\x0c' || c == '\r'

/-- The text without its leading blank characters. -/
def trimStart (cs : List Char) : List Char := cs.dropWhile isBlank

/-- The text without its trailing blank characters. -/
def trimEnd (cs : List Char) : List Char := (cs.reverse.dropWhile isBlank).reverse

/-- The text without the blank characters at both of its ends. -/
def trim (cs : List Char) : List Char := trimEnd (trimStart cs)

/-- Every character of the text is blank. -/
def isAllBlank (cs : List Char) : Bool := cs.all isBlank

@[simp] theorem trim_nil : trim [] = [] := rfl

theorem dropWhile_eq_self {p : α → Bool} {l : List α} (h : ∀ a ∈ l.head?, p a = false) :
    l.dropWhile p = l := by
  cases l with
  | nil => rfl
  | cons a l => rw [List.dropWhile_cons, h a rfl, if_neg Bool.false_ne_true]

/-- Nothing is trimmed where the first and the last character are not blank. -/
theorem trim_eq_self {cs : List Char} (hfirst : ∀ c ∈ cs.head?, isBlank c = false)
    (hlast : ∀ c ∈ cs.getLast?, isBlank c = false) : trim cs = cs := by
  rw [trim, trimStart, dropWhile_eq_self hfirst, trimEnd,
    dropWhile_eq_self fun c hc => hlast c (by rwa [List.head?_reverse] at hc), List.reverse_reverse]

/-- Blank characters at the front make no difference. -/
theorem trim_append_of_blank {front : List Char} (h : ∀ c ∈ front, isBlank c = true)
    (cs : List Char) : trim (front ++ cs) = trim cs := by
  rw [trim, trimStart, List.dropWhile_append_of_pos h]
  rfl

/-- Neither does one at the end. -/
theorem trim_concat_of_blank {c : Char} (h : isBlank c = true) (cs : List Char) :
    trim (cs ++ [c]) = trim cs := by
  have hend : ∀ front, trimEnd (front ++ [c]) = trimEnd front := by
    intro front
    rw [trimEnd, List.reverse_append, List.reverse_singleton, List.singleton_append,
      List.dropWhile_cons, h, if_pos rfl]
    rfl
  rw [trim, trimStart, List.dropWhile_append]
  split
  · next hempty =>
    rw [trim, trimStart, List.isEmpty_iff.1 hempty, List.dropWhile_cons, h, if_pos rfl]
    rfl
  · exact hend _

/-- Nor do several of them. -/
theorem trim_append_blank {back : List Char} (h : ∀ c ∈ back, isBlank c = true)
    (cs : List Char) : trim (cs ++ back) = trim cs := by
  induction back generalizing cs with
  | nil => rw [List.append_nil]
  | cons c back ih =>
    have hc : isBlank c = true := h c List.mem_cons_self
    have hback : ∀ d ∈ back, isBlank d = true := fun d hd => h d (List.mem_cons_of_mem c hd)
    rw [List.append_cons, ih hback, trim_concat_of_blank hc]

theorem trim_eq_self_of_forall {cs : List Char} (h : ∀ c ∈ cs, isBlank c = false) :
    trim cs = cs :=
  trim_eq_self (fun c hc => h c (List.mem_of_mem_head? hc))
    fun c hc => h c (List.mem_of_mem_getLast? hc)

/-- Leading blanks end at the first character that is not blank. -/
theorem trimStart_append_cons {front : List Char} {c : Char}
    (hfront : ∀ d ∈ front, isBlank d = true) (hc : isBlank c = false) (rest : List Char) :
    trimStart (front ++ c :: rest) = c :: rest := by
  rw [trimStart, List.dropWhile_append_of_pos hfront, List.dropWhile_cons, hc,
    if_neg Bool.false_ne_true]

/-- Nothing is trimmed from the end before a character that is not blank. -/
theorem trimEnd_append_cons {c : Char} (hc : isBlank c = false) (front rest : List Char) :
    trimEnd (front ++ c :: rest) = front ++ c :: trimEnd rest := by
  have hfront : (c :: front.reverse).dropWhile isBlank = c :: front.reverse := by
    rw [List.dropWhile_cons, hc, if_neg Bool.false_ne_true]
  rw [trimEnd, trimEnd, List.reverse_append, List.reverse_cons, List.append_assoc,
    List.singleton_append, List.dropWhile_append]
  split
  · next hempty =>
    rw [hfront, List.isEmpty_iff.1 hempty]
    simp
  · simp

theorem trimEnd_eq_nil {cs : List Char} (h : ∀ c ∈ cs, isBlank c = true) : trimEnd cs = [] := by
  rw [trimEnd, ← List.append_nil cs.reverse,
    List.dropWhile_append_of_pos fun c hc => h c (List.mem_reverse.1 hc)]
  rfl

theorem trim_trimEnd (cs : List Char) : trim (trimEnd cs) = trim cs := by
  have hparts : cs = trimEnd cs ++ (cs.reverse.takeWhile isBlank).reverse := by
    rw [trimEnd, ← List.reverse_append, List.takeWhile_append_dropWhile, List.reverse_reverse]
  have hblank : ∀ c ∈ (cs.reverse.takeWhile isBlank).reverse, isBlank c = true :=
    fun c hc => List.all_eq_true.1 List.all_takeWhile c (List.mem_reverse.1 hc)
  exact ((congrArg trim hparts).trans (trim_append_blank hblank _)).symm

/-- The printed characters of ASCII are not blank. -/
theorem isBlank_eq_false {c : Char} (hlow : 0x20 < c.toNat) (hhigh : c.toNat < 0x85) :
    isBlank c = false := by
  simp only [isBlank, UInt32.le_iff_toNat_le, UInt32.reduceToNat, Char.toNat_val,
    Bool.or_eq_false_iff, Bool.and_eq_false_imp, decide_eq_true_eq, decide_eq_false_iff_not,
    Nat.not_le, beq_eq_false_iff_ne, ne_eq, ← UInt32.toNat_inj]
  omega

theorem isBlank_eq_false_of_isDigit {c : Char} (h : c.isDigit = true) : isBlank c = false := by
  have hdigit : 48 ≤ c.toNat ∧ c.toNat ≤ 57 := by
    simpa [Char.isDigit, UInt32.le_iff_toNat_le] using h
  exact isBlank_eq_false (by omega) (by omega)

/-- Letters are not blank in either case. -/
theorem isBlank_toLower (c : Char) : isBlank c.toLower = isBlank c := by
  unfold Char.toLower
  split
  · next h =>
    have hletter : 65 ≤ c.toNat ∧ c.toNat ≤ 90 := by
      simpa [UInt32.le_iff_toNat_le] using h
    rw [isBlank_eq_false (c := c) (by omega) (by omega)]
    have hlower : (c.val + ('a'.val - 'A'.val)).toNat = c.toNat + 32 := by
      rw [UInt32.toNat_add, Char.toNat_val]
      change (c.toNat + 32) % _ = _
      omega
    exact isBlank_eq_false (by rw [← Char.toNat_val, hlower]; omega)
      (by rw [← Char.toNat_val, hlower]; omega)
  · rfl

theorem map_toLower_trim (cs : List Char) :
    (trim cs).map Char.toLower = trim (cs.map Char.toLower) := by
  have hblank : isBlank ∘ Char.toLower = isBlank := funext isBlank_toLower
  rw [trim, trim, trimEnd, trimEnd, trimStart, trimStart, List.dropWhile_map, hblank,
    ← List.map_reverse, List.dropWhile_map, hblank, List.map_reverse]

end Logbook.Text
