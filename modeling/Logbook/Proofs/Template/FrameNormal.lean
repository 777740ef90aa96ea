import Logbook.Template.FrameLayout
import Mathlib.Data.List.Chain

/-!
# Normal frame layouts

A frame layout is normal if every letter occurs in it at most once and its literal pieces
are as long as they can be. `read` brings a text into this form: its layout is normal
(`isNormal_read`), the text of the layout is the text read, without the letters that
occurred before (`source_read`), and a normal layout is read back from its own text
(`read_source`). So to read the text of a layout that was read gives that layout again.
`FrameLayout.read_normal` says all of this of every text.
-/

namespace Logbook

namespace FramePiece

/-- The letter of a piece. Literal text has none. -/
def letter? : FramePiece → Option Char
  | literal _ => none
  | functionName => some 'f'
  | function => some 'F'
  | fileName => some 'n'
  | file => some 'N'
  | line => some 'l'
  | package => some 'p'

/-- The piece of a letter is the one that has this letter. -/
theorem ofLetter?_eq_some_iff {c : Char} {piece : FramePiece} :
    ofLetter? c = some piece ↔ piece.letter? = some c := by
  constructor
  · intro h
    unfold ofLetter? at h
    split at h <;> cases h <;> rfl
  · intro h
    cases piece <;> cases h <;> rfl

theorem source_of_letter? {c : Char} {piece : FramePiece} (h : piece.letter? = some c) :
    piece.source = [c] := by
  cases piece <;> cases h <;> rfl

theorem exists_literal {piece : FramePiece} (h : piece.letter? = none) :
    ∃ chars, piece = literal chars := by
  cases piece with
  | literal chars => exact ⟨chars, rfl⟩
  | _ => cases h

end FramePiece

namespace FrameLayout

/-- The letters of a layout, one for each piece that is no literal text. -/
def letters (layout : FrameLayout) : List Char := layout.filterMap FramePiece.letter?

/-- The layout has every letter at most once, and literal text only in pieces that are not
    empty, stand beside no other one and hold no letter. -/
structure IsNormal (layout : FrameLayout) : Prop where
  nodup_letters : (letters layout).Nodup
  literal_ne_nil : ∀ chars, FramePiece.literal chars ∈ layout → chars ≠ []
  separated : layout.IsChain fun a b => ¬ (a.letter? = none ∧ b.letter? = none)
  plain : ∀ chars, FramePiece.literal chars ∈ layout → ∀ c ∈ chars, FramePiece.ofLetter? c = none

/-- The six letters. -/
def isLetter (c : Char) : Bool := c ∈ ['f', 'F', 'n', 'N', 'l', 'p']

/-- The text without the letters that occurred before: a character stays unless it is a
    letter and stands among the characters before it as well. -/
def withoutRepeats (cs : List Char) : List Char :=
  (cs.zipIdx.filter fun (c, i) => ¬ (isLetter c ∧ c ∈ cs.take i)).map Prod.fst

theorem ofLetter?_eq_none_iff {c : Char} : FramePiece.ofLetter? c = none ↔ isLetter c = false := by
  unfold FramePiece.ofLetter? isLetter
  split <;> simp_all

variable {chars cs : List Char} {piece : FramePiece} {seen layout : List FramePiece}
  {c : Char}

theorem letters_cons (h : piece.letter? = some c) :
    letters (piece :: layout) = c :: letters layout := by
  rw [letters, List.filterMap_cons_some h]
  rfl

@[simp] theorem letters_literal : letters (literal chars ++ layout) = letters layout := by
  unfold literal
  split <;> rfl

theorem readAfter_plain {front : List Char} (h : ∀ c ∈ front, FramePiece.ofLetter? c = none) :
    readAfter seen chars (front ++ cs) = readAfter seen (chars ++ front) cs := by
  induction front generalizing chars with
  | nil => rw [List.nil_append, List.append_nil]
  | cons c front ih =>
    rw [List.forall_mem_cons] at h
    rw [List.cons_append, readAfter, h.1]
    dsimp only
    rw [ih h.2, List.append_assoc, List.singleton_append]

theorem readAfter_letter (h : piece.letter? = some c) :
    readAfter seen chars (c :: cs) =
      if piece ∈ seen then readAfter seen chars cs
      else literal chars ++ piece :: readAfter (piece :: seen) [] cs := by
  rw [readAfter, FramePiece.ofLetter?_eq_some_iff.2 h]

/-! ### The layout of a text is normal -/

/-- No piece that was seen before is made again. -/
theorem not_mem_letters_readAfter (hpiece : piece ∈ seen) (hc : piece.letter? = some c) :
    c ∉ letters (readAfter seen chars cs) := by
  fun_induction readAfter seen chars cs with
  | case1 seen chars =>
    rw [← List.append_nil (literal chars), letters_literal]
    exact List.not_mem_nil
  | case2 seen chars d cs hd ih => exact ih hpiece
  | case3 seen chars d cs made hd hmade ih => exact ih hpiece
  | case4 seen chars d cs made hd hmade ih =>
    have hletter := FramePiece.ofLetter?_eq_some_iff.1 hd
    rw [letters_literal, letters_cons hletter, List.mem_cons, not_or]
    refine ⟨?_, ih (List.mem_cons_of_mem _ hpiece)⟩
    rintro rfl
    have hsame := (FramePiece.ofLetter?_eq_some_iff.2 hc).symm.trans hd
    exact hmade (Option.some.inj hsame ▸ hpiece)

theorem isNormal_literal (h : ∀ c ∈ chars, FramePiece.ofLetter? c = none) :
    IsNormal (literal chars) := by
  unfold literal
  split
  · exact ⟨List.nodup_nil, nofun, .nil, nofun⟩
  · next hne =>
    refine ⟨List.nodup_nil, ?_, .singleton _, ?_⟩
    · rintro chars' hmem rfl
      simp_all
    · rintro chars' hmem
      simp_all

/-- A letter that does not occur may stand before a normal layout, and any literal text
    without letters before that. -/
theorem IsNormal.literal_append_cons (h : IsNormal layout) (hletter : piece.letter? = some c)
    (hc : c ∉ letters layout) (hplain : ∀ d ∈ chars, FramePiece.ofLetter? d = none) :
    IsNormal (literal chars ++ piece :: layout) := by
  have hmem : ∀ text, FramePiece.literal text ∈ literal chars ++ piece :: layout →
      (text = chars ∧ chars ≠ []) ∨ FramePiece.literal text ∈ layout := by
    intro text htext
    rcases List.mem_append.1 htext with hfront | htail
    · unfold literal at hfront
      split at hfront <;> simp_all
    · rcases List.mem_cons.1 htail with rfl | hlayout
      · cases hletter
      · exact .inr hlayout
  have hchain : (piece :: layout).IsChain fun a b => ¬ (a.letter? = none ∧ b.letter? = none) := by
    refine List.isChain_cons.2 ⟨fun next _ hnone => ?_, h.separated⟩
    rw [hletter] at hnone
    cases hnone.1
  refine ⟨?_, ?_, ?_, ?_⟩
  · rw [letters_literal, letters_cons hletter]
    exact List.nodup_cons.2 ⟨hc, h.nodup_letters⟩
  · intro text htext
    rcases hmem text htext with ⟨rfl, hne⟩ | hlayout
    · exact hne
    · exact h.literal_ne_nil text hlayout
  · unfold literal
    split
    · exact hchain
    · refine List.isChain_cons_cons.2 ⟨fun hnone => ?_, hchain⟩
      rw [hletter] at hnone
      cases hnone.2
  · intro text htext
    rcases hmem text htext with ⟨rfl, -⟩ | hlayout
    · exact hplain
    · exact h.plain text hlayout

theorem isNormal_readAfter (h : ∀ c ∈ chars, FramePiece.ofLetter? c = none) :
    IsNormal (readAfter seen chars cs) := by
  fun_induction readAfter seen chars cs with
  | case1 seen chars => exact isNormal_literal h
  | case2 seen chars c cs hc ih =>
    refine ih fun d hd => ?_
    rcases List.mem_append.1 hd with hd | hd
    · exact h d hd
    · rw [List.mem_singleton.1 hd]
      exact hc
  | case3 seen chars c cs piece hc hpiece ih => exact ih h
  | case4 seen chars c cs piece hc hpiece ih =>
    have hletter := FramePiece.ofLetter?_eq_some_iff.1 hc
    exact (ih nofun).literal_append_cons hletter
      (not_mem_letters_readAfter List.mem_cons_self hletter) h

/-- What is read is normal. -/
theorem isNormal_read (cs : List Char) : IsNormal (read cs) := isNormal_readAfter nofun

/-! ### The text of the layout of a text -/

theorem source_append (front back : FrameLayout) :
    source (front ++ back) = source front ++ source back := List.flatMap_append

theorem source_cons : source (piece :: layout) = piece.source ++ source layout :=
  List.flatMap_cons

/-- The pieces seen so far are those whose letters occur in a text. -/
def SeenIn (past : List Char) (seen : List FramePiece) : Prop :=
  ∀ piece c, FramePiece.letter? piece = some c → (piece ∈ seen ↔ c ∈ past)

theorem seenIn_nil : SeenIn [] [] := fun _ _ _ => iff_of_false List.not_mem_nil List.not_mem_nil

variable {past : List Char}

/-- A character that is no letter, or one of a piece seen before, adds no piece. -/
theorem SeenIn.skip (h : SeenIn past seen)
    (hc : ∀ piece, FramePiece.letter? piece = some c → piece ∈ seen) :
    SeenIn (past ++ [c]) seen := by
  intro piece d hd
  rw [h piece d hd, List.mem_append, List.mem_singleton, or_iff_left_of_imp]
  rintro rfl
  exact (h piece d hd).1 (hc piece hd)

theorem SeenIn.add (h : SeenIn past seen) (hletter : piece.letter? = some c) :
    SeenIn (past ++ [c]) (piece :: seen) := by
  intro other d hd
  have hsame : other = piece ↔ d = c := by
    constructor
    · rintro rfl
      exact Option.some.inj (hd.symm.trans hletter)
    · rintro rfl
      have hother := FramePiece.ofLetter?_eq_some_iff.2 hd
      exact Option.some.inj (hother.symm.trans (FramePiece.ofLetter?_eq_some_iff.2 hletter))
  rw [List.mem_cons, List.mem_append, List.mem_singleton, h other d hd, hsame, or_comm]

/-- The induction is over what is still to be read. What was read before decides which
    letters count as seen, and the literal text that is pending stands in front. -/
theorem source_readAfter (hseen : SeenIn past seen) :
    source (readAfter seen chars cs) =
      chars ++ ((cs.zipIdx past.length).filter fun (c, i) =>
        ¬ (isLetter c ∧ c ∈ (past ++ cs).take i)).map Prod.fst := by
  induction cs generalizing seen chars past with
  | nil => rw [readAfter, source_literal, List.zipIdx_nil, List.filter_nil, List.map_nil,
      List.append_nil]
  | cons c cs ih =>
    have hpast : past ++ c :: cs = (past ++ [c]) ++ cs := by
      rw [List.append_assoc, List.singleton_append]
    have htake : ((past ++ [c]) ++ cs).take past.length = past := by
      rw [List.append_assoc, List.take_left]
    have hlength : past.length + 1 = (past ++ [c]).length := by simp
    rw [hpast, List.zipIdx_cons, List.filter_cons, hlength]
    simp only [htake]
    cases hc : FramePiece.ofLetter? c with
    | none =>
      have hskip : SeenIn (past ++ [c]) seen := hseen.skip fun piece hletter => by
        rw [FramePiece.ofLetter?_eq_some_iff.2 hletter] at hc
        cases hc
      rw [if_pos (by simp [ofLetter?_eq_none_iff.1 hc]), readAfter, hc]
      dsimp only
      rw [ih hskip, List.map_cons, List.append_assoc, List.singleton_append]
    | some piece =>
      have hletter := FramePiece.ofLetter?_eq_some_iff.1 hc
      have hisLetter : isLetter c = true := by
        by_contra hnot
        rw [ofLetter?_eq_none_iff.2 (by simpa using hnot)] at hc
        cases hc
      have hmem : piece ∈ seen ↔ c ∈ past := hseen piece c hletter
      rw [readAfter_letter hletter]
      by_cases hrepeated : c ∈ past
      · have hskip : SeenIn (past ++ [c]) seen := hseen.skip fun other hother => by
          rwa [hseen other c hother]
        rw [if_pos (hmem.2 hrepeated), if_neg (by simp [hisLetter, hrepeated]), ih hskip]
      · rw [if_neg (mt hmem.1 hrepeated), if_pos (by simp [hrepeated]), source_append,
          source_literal, source_cons, FramePiece.source_of_letter? hletter,
          ih (hseen.add hletter), List.map_cons, List.nil_append, List.singleton_append]

/-- The text of the layout of a text is this text without the letters that occurred
    before. -/
theorem source_read (cs : List Char) : source (read cs) = withoutRepeats cs :=
  source_readAfter seenIn_nil

/-! ### A normal layout is read back -/

theorem IsNormal.tail (h : IsNormal (piece :: layout)) : IsNormal layout where
  nodup_letters := by
    cases hletter : piece.letter? with
    | none =>
      obtain ⟨chars, rfl⟩ := FramePiece.exists_literal hletter
      exact h.nodup_letters
    | some c => exact (List.nodup_cons.1 (letters_cons hletter ▸ h.nodup_letters)).2
  literal_ne_nil chars hmem := h.literal_ne_nil chars (List.mem_cons_of_mem _ hmem)
  separated := h.separated.tail
  plain chars hmem := h.plain chars (List.mem_cons_of_mem _ hmem)

theorem literal_of_ne_nil (h : chars ≠ []) : literal chars = [.literal chars] := by
  unfold literal
  rw [if_neg (by simpa using h)]

/-- The literal text before a layout is pending while the text of the layout is read. -/
theorem readAfter_source (hnormal : IsNormal (literal chars ++ layout))
    (hseen : ∀ piece ∈ seen, piece ∉ layout) :
    readAfter seen chars (source layout) = literal chars ++ layout := by
  induction layout generalizing seen chars with
  | nil => rw [List.append_nil]; rfl
  | cons piece layout ih =>
    have hseen_tail : ∀ other ∈ seen, other ∉ layout :=
      fun other hother hmem => hseen other hother (List.mem_cons_of_mem _ hmem)
    cases hletter : piece.letter? with
    | none =>
      obtain ⟨text, rfl⟩ := FramePiece.exists_literal hletter
      have hmem : FramePiece.literal text ∈ literal chars ++ .literal text :: layout :=
        List.mem_append_right _ List.mem_cons_self
      have hliteral := literal_of_ne_nil (hnormal.literal_ne_nil text hmem)
      -- two literals in a row are not normal, so nothing is pending here
      have hchars : chars = [] := by
        by_contra hne
        rw [literal_of_ne_nil hne] at hnormal
        exact (List.isChain_cons_cons.1 hnormal.separated).1 ⟨rfl, rfl⟩
      rw [hchars] at hnormal ⊢
      rw [source_cons, FramePiece.source, readAfter_plain (hnormal.plain text (by simp)),
        List.nil_append, ih (by rw [hliteral]; exact hnormal) hseen_tail, hliteral]
      rfl
    | some c =>
      have htail : IsNormal (piece :: layout) := by
        by_cases hne : chars = []
        · rw [hne] at hnormal
          exact hnormal
        · rw [literal_of_ne_nil hne] at hnormal
          exact hnormal.tail
      have hnotmem : piece ∉ layout := by
        intro hmem
        have hnodup := htail.nodup_letters
        rw [letters_cons hletter] at hnodup
        exact (List.nodup_cons.1 hnodup).1 (List.mem_filterMap.2 ⟨piece, hmem, hletter⟩)
      have hseen_cons : ∀ other ∈ piece :: seen, other ∉ layout :=
        List.forall_mem_cons.2 ⟨hnotmem, hseen_tail⟩
      have hrest : readAfter (piece :: seen) [] (source layout) = layout :=
        ih htail.tail hseen_cons
      rw [source_cons, FramePiece.source_of_letter? hletter, List.singleton_append,
        readAfter_letter hletter, if_neg fun hmem => hseen piece hmem List.mem_cons_self, hrest]

/-- A normal layout is read from its own text. -/
theorem read_source (h : IsNormal layout) : read (source layout) = layout :=
  readAfter_source h nofun

/-- Reading brings the text of a layout into a normal form: the layout is normal, its text
    is the one that was read without the letters that occurred before, and to read that
    text gives the same layout. -/
theorem read_normal (cs : List Char) :
    IsNormal (read cs) ∧ source (read cs) = withoutRepeats cs ∧
      read (source (read cs)) = read cs :=
  ⟨isNormal_read cs, source_read cs, read_source (isNormal_read cs)⟩

example : read "f:f l".toList = [.functionName, .literal [':', ' '], .line] := by decide

end FrameLayout

end Logbook
