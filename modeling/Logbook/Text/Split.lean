/-!
# Cutting texts

Texts are cut at the first or the last occurrence of a character, at the first
occurrence of a longer separator, or at every occurrence. A cut is `none` where
the separator does not occur. `lines` gives the lines of a text, and `concat`
and `join` put pieces together again.
-/

namespace Logbook.Text

/-- The parts before and after the first occurrence of `sep`. -/
def splitFirst (sep : Char) : List Char → Option (List Char × List Char)
  | [] => none
  | c :: cs =>
    if c = sep then some ([], cs)
    else (splitFirst sep cs).map fun (before, after) => (c :: before, after)

/-- The parts before and after the last occurrence of `sep`. -/
def splitLast (sep : Char) : List Char → Option (List Char × List Char)
  | [] => none
  | c :: cs =>
    match splitLast sep cs with
    | some (before, after) => some (c :: before, after)
    | none => if c = sep then some ([], cs) else none

/-- The parts before and after the first occurrence of the text `sep`. -/
def splitFirstSeq (sep : List Char) : List Char → Option (List Char × List Char)
  | [] => if sep.isEmpty then some ([], []) else none
  | c :: cs =>
    match sep.isPrefixOf? (c :: cs) with
    | some rest => some ([], rest)
    | none => (splitFirstSeq sep cs).map fun (before, after) => (c :: before, after)

/-- The parts before and after the last occurrence of the text `sep`. -/
def splitLastSeq (sep : List Char) : List Char → Option (List Char × List Char)
  | [] => if sep.isEmpty then some ([], []) else none
  | c :: cs =>
    match splitLastSeq sep cs with
    | some (before, after) => some (c :: before, after)
    | none => (sep.isPrefixOf? (c :: cs)).map fun rest => ([], rest)

/-- The pieces between the occurrences of `sep`; a text without any is its own
    only piece. -/
def splitAll (sep : Char) : List Char → List (List Char)
  | [] => [[]]
  | c :: cs =>
    if c = sep then [] :: splitAll sep cs
    else
      match splitAll sep cs with
      | [] => [[c]]
      | piece :: pieces => (c :: piece) :: pieces

/-- The text without one carriage return at its end. -/
def dropCarriageReturn (cs : List Char) : List Char :=
  if cs.getLast? = some '\r' then cs.dropLast else cs

/-- The lines of a text. A line ends at a line feed, which belongs to no line,
    as does one carriage return before it; a text that ends in a line feed has
    no further, empty line. -/
def lines (cs : List Char) : List (List Char) :=
  let pieces := splitAll '\n' cs
  match pieces.getLast? with
  | some [] => pieces.dropLast.map dropCarriageReturn
  | some piece => pieces.dropLast.map dropCarriageReturn ++ [piece]
  | none => []

/-- The texts one after another. -/
def concat : List String → String
  | [] => ""
  | s :: rest => s ++ concat rest

/-- The texts one after another, with `sep` between any two neighbours. -/
def join (sep : String) : List String → String
  | [] => ""
  | [s] => s
  | s :: rest => s ++ sep ++ join sep rest

@[simp] theorem concat_nil : concat [] = "" := rfl

@[simp] theorem concat_cons (s : String) (rest : List String) :
    concat (s :: rest) = s ++ concat rest := rfl

/-- Joining runs of texts is joining all of them. -/
theorem concat_append (xs ys : List String) : concat (xs ++ ys) = concat xs ++ concat ys := by
  induction xs with
  | nil => simp
  | cons x xs ih => simp [ih, String.append_assoc]

@[simp] theorem join_nil (sep : String) : join sep [] = "" := rfl

@[simp] theorem join_singleton (sep s : String) : join sep [s] = s := rfl

theorem join_cons_cons (sep s t : String) (rest : List String) :
    join sep (s :: t :: rest) = s ++ sep ++ join sep (t :: rest) := rfl

/-- A text of joined texts that are not empty is empty only if there are none. -/
theorem join_eq_empty_iff (sep : String) {texts : List String} (h : ∀ t ∈ texts, t ≠ "") :
    join sep texts = "" ↔ texts = [] := by
  cases texts with
  | nil => simp
  | cons t rest =>
    have ht : t ≠ "" := h t List.mem_cons_self
    cases rest with
    | nil => simpa using ht
    | cons next rest => simp [join_cons_cons, ht]

/-- A text comes before the joined texts, with a separator if they are not empty. -/
theorem join_cons_of_forall_ne (sep s : String) {texts : List String}
    (h : ∀ t ∈ texts, t ≠ "") :
    join sep (s :: texts) = s ++ (if join sep texts = "" then "" else sep) ++ join sep texts := by
  cases texts with
  | nil => simp
  | cons t rest =>
    have hjoin : join sep (t :: rest) ≠ "" := by simp [join_eq_empty_iff sep h]
    rw [join_cons_cons, if_neg hjoin]

theorem join_append (sep : String) {xs ys : List String} (hxs : xs ≠ []) (hys : ys ≠ []) :
    join sep (xs ++ ys) = join sep xs ++ sep ++ join sep ys := by
  induction xs with
  | nil => exact absurd rfl hxs
  | cons x xs ih =>
    cases xs with
    | nil =>
      cases ys with
      | nil => exact absurd rfl hys
      | cons y ys => rfl
    | cons x' xs =>
      rw [join_cons_cons, List.cons_append, List.cons_append, join_cons_cons, ← List.cons_append,
        ih (List.cons_ne_nil x' xs)]
      simp only [String.append_assoc]

/-- Runs of texts that are joined each and then with each other are joined at once. -/
theorem join_map_join (sep : String) {runs : List (List String)} (h : ∀ run ∈ runs, run ≠ []) :
    join sep (runs.map (join sep)) = join sep runs.flatten := by
  induction runs with
  | nil => rfl
  | cons run runs ih =>
    have hrun : run ≠ [] := h run List.mem_cons_self
    have hruns : ∀ run ∈ runs, run ≠ [] := fun r hr => h r (List.mem_cons_of_mem run hr)
    cases runs with
    | nil => simp
    | cons next runs =>
      have hnext : (next :: runs).flatten ≠ [] := by
        simp [List.flatten_cons, hruns next List.mem_cons_self]
      rw [List.flatten_cons (l := run), join_append sep hrun hnext, ← ih hruns]
      rfl

/-- The two parts of a first cut have the separator between them, and the first
    part does not hold it. -/
theorem eq_append_of_splitFirst {sep : Char} {cs before after : List Char}
    (h : splitFirst sep cs = some (before, after)) :
    cs = before ++ sep :: after ∧ sep ∉ before := by
  induction cs generalizing before with
  | nil => simp [splitFirst] at h
  | cons c cs ih =>
    simp only [splitFirst] at h
    split at h
    · next hc =>
      cases h
      simp [hc]
    · next hc =>
      obtain ⟨⟨b, a⟩, hcut, heq⟩ := Option.map_eq_some_iff.1 h
      cases heq
      obtain ⟨rfl, hmem⟩ := ih hcut
      exact ⟨rfl, by simp [Ne.symm hc, hmem]⟩

/-- A first cut is at the separator, where what stands before it does not hold it. -/
theorem splitFirst_append {sep : Char} {before : List Char} (h : sep ∉ before)
    (after : List Char) : splitFirst sep (before ++ sep :: after) = some (before, after) := by
  induction before with
  | nil => simp [splitFirst]
  | cons c before ih =>
    have hc : c ≠ sep := fun heq => h (heq ▸ List.mem_cons_self)
    have hrest : sep ∉ before := fun hmem => h (List.mem_cons_of_mem c hmem)
    rw [List.cons_append, splitFirst, if_neg hc, ih hrest]
    rfl

/-- A first cut fails exactly where the separator does not occur. -/
theorem splitFirst_eq_none_iff {sep : Char} {cs : List Char} :
    splitFirst sep cs = none ↔ sep ∉ cs := by
  constructor
  · intro hcut hmem
    obtain ⟨before, after, rfl, hbefore⟩ := List.eq_append_cons_of_mem hmem
    rw [splitFirst_append hbefore] at hcut
    cases hcut
  · intro hmem
    cases hcut : splitFirst sep cs with
    | none => rfl
    | some parts =>
      obtain ⟨rfl, _⟩ := eq_append_of_splitFirst hcut
      exact absurd (List.mem_append_right _ List.mem_cons_self) hmem

/-- A last cut fails exactly where the separator does not occur. -/
theorem splitLast_eq_none_iff {sep : Char} {cs : List Char} :
    splitLast sep cs = none ↔ sep ∉ cs := by
  induction cs with
  | nil => simp [splitLast]
  | cons c cs ih =>
    simp only [splitLast]
    split
    · next b a hcut =>
      have hmem : sep ∈ cs := by
        by_cases hm : sep ∈ cs
        · exact hm
        · simp [ih.2 hm] at hcut
      simp [hmem]
    · next hcut =>
      have hmem := ih.1 hcut
      by_cases hc : c = sep
      · simp [hc]
      · simp [hc, Ne.symm hc, hmem]

/-- The two parts of a last cut have the separator between them, and the second
    part does not hold it. -/
theorem eq_append_of_splitLast {sep : Char} {cs before after : List Char}
    (h : splitLast sep cs = some (before, after)) :
    cs = before ++ sep :: after ∧ sep ∉ after := by
  induction cs generalizing before with
  | nil => simp [splitLast] at h
  | cons c cs ih =>
    simp only [splitLast] at h
    split at h
    · next b a hcut =>
      cases h
      obtain ⟨rfl, hmem⟩ := ih hcut
      exact ⟨rfl, hmem⟩
    · next hcut =>
      split at h
      · next hc =>
        cases h
        exact ⟨by simp [hc], splitLast_eq_none_iff.1 hcut⟩
      · simp at h

/-- A last cut is at the separator, where what stands behind it does not hold it. -/
theorem splitLast_append {sep : Char} {after : List Char} (h : sep ∉ after)
    (before : List Char) : splitLast sep (before ++ sep :: after) = some (before, after) := by
  induction before with
  | nil => simp [splitLast, splitLast_eq_none_iff.2 h]
  | cons c before ih => rw [List.cons_append, splitLast, ih]

/-- What `isPrefixOf?` leaves is the rest behind the leading text. -/
theorem eq_append_of_isPrefixOf? {lead cs rest : List Char} (h : lead.isPrefixOf? cs = some rest) :
    cs = lead ++ rest := by
  induction lead generalizing cs with
  | nil =>
    cases h
    rfl
  | cons c lead ih =>
    cases cs with
    | nil => cases h
    | cons d cs =>
      change (if c == d then lead.isPrefixOf? cs else none) = some rest at h
      split at h
      · next hc => simp [ih h, (beq_iff_eq.1 hc).symm]
      · cases h

theorem isPrefixOf?_append (lead rest : List Char) :
    lead.isPrefixOf? (lead ++ rest) = some rest := by
  induction lead with
  | nil => rfl
  | cons c lead ih =>
    change (if c == c then lead.isPrefixOf? (lead ++ rest) else none) = some rest
    rw [beq_self_eq_true, if_pos rfl, ih]

/-- The two parts of a first cut at a text have that text between them. -/
theorem eq_append_of_splitFirstSeq {sep cs before after : List Char}
    (h : splitFirstSeq sep cs = some (before, after)) : cs = before ++ sep ++ after := by
  induction cs generalizing before with
  | nil =>
    simp only [splitFirstSeq] at h
    split at h <;> simp_all
  | cons c cs ih =>
    simp only [splitFirstSeq] at h
    split at h
    · next rest hrest =>
      cases h
      simpa using eq_append_of_isPrefixOf? hrest
    · obtain ⟨⟨b, a⟩, hcut, heq⟩ := Option.map_eq_some_iff.1 h
      cases heq
      simp [ih hcut]

/-- A first cut at a text is made at the first place where it occurs. -/
theorem length_le_of_splitFirstSeq {sep cs before after lead rest : List Char}
    (h : splitFirstSeq sep cs = some (before, after)) (hcs : cs = lead ++ sep ++ rest) :
    before.length ≤ lead.length := by
  induction cs generalizing before lead with
  | nil =>
    simp only [splitFirstSeq] at h
    split at h <;> simp_all
  | cons c cs ih =>
    simp only [splitFirstSeq] at h
    split at h
    · cases h
      exact Nat.zero_le _
    · next hprefix =>
      obtain ⟨⟨b, a⟩, hcut, heq⟩ := Option.map_eq_some_iff.1 h
      cases heq
      cases lead with
      | nil =>
        rw [hcs, List.nil_append, isPrefixOf?_append] at hprefix
        cases hprefix
      | cons d lead =>
        simp only [List.cons_append, List.cons.injEq] at hcs
        exact Nat.succ_le_succ (ih hcut hcs.2)

/-- A first cut at a text fails only where the text does not occur. -/
theorem ne_append_of_splitFirstSeq {sep cs : List Char} (h : splitFirstSeq sep cs = none)
    (lead rest : List Char) : cs ≠ lead ++ sep ++ rest := by
  intro hcs
  induction cs generalizing lead with
  | nil =>
    simp only [splitFirstSeq] at h
    split at h <;> simp_all
  | cons c cs ih =>
    simp only [splitFirstSeq] at h
    split at h
    · cases h
    · next hprefix =>
      cases lead with
      | nil =>
        rw [hcs, List.nil_append, isPrefixOf?_append] at hprefix
        cases hprefix
      | cons d lead =>
        simp only [List.cons_append, List.cons.injEq] at hcs
        exact ih (Option.map_eq_none_iff.1 h) lead hcs.2

/-- A first cut at a text is at that text, where its first character does not occur
    before it. -/
theorem splitFirstSeq_append {c : Char} {before : List Char} (h : c ∉ before)
    (sep after : List Char) :
    splitFirstSeq (c :: sep) (before ++ (c :: sep) ++ after) = some (before, after) := by
  induction before with
  | nil =>
    have hprefix := isPrefixOf?_append (c :: sep) after
    rw [List.cons_append] at hprefix
    rw [List.nil_append, List.cons_append, splitFirstSeq, hprefix]
  | cons d before ih =>
    have hd : (c == d) = false := beq_eq_false_iff_ne.2 fun heq => h (heq ▸ List.mem_cons_self)
    have hprefix : (c :: sep).isPrefixOf? (d :: (before ++ (c :: sep) ++ after)) = none := by
      change (if c == d then sep.isPrefixOf? _ else none) = none
      rw [hd, if_neg Bool.false_ne_true]
    rw [List.cons_append, List.cons_append, splitFirstSeq, hprefix,
      ih fun hmem => h (List.mem_cons_of_mem d hmem)]
    rfl

/-- The two parts of a last cut at a text have that text between them. -/
theorem eq_append_of_splitLastSeq {sep cs before after : List Char}
    (h : splitLastSeq sep cs = some (before, after)) : cs = before ++ sep ++ after := by
  induction cs generalizing before with
  | nil =>
    simp only [splitLastSeq] at h
    split at h <;> simp_all
  | cons c cs ih =>
    simp only [splitLastSeq] at h
    split at h
    · next b a hcut =>
      cases h
      rw [ih hcut]
      rfl
    · obtain ⟨rest, hrest, heq⟩ := Option.map_eq_some_iff.1 h
      cases heq
      exact eq_append_of_isPrefixOf? hrest

/-- A last cut at a text is at that text, where it does not occur from its second
    character on. -/
theorem splitLastSeq_append {c : Char} {sep after : List Char} (h : ¬ c :: sep <:+: sep ++ after)
    (before : List Char) :
    splitLastSeq (c :: sep) (before ++ (c :: sep) ++ after) = some (before, after) := by
  induction before with
  | nil =>
    have hlater : splitLastSeq (c :: sep) (sep ++ after) = none := by
      cases hcut : splitLastSeq (c :: sep) (sep ++ after) with
      | none => rfl
      | some parts => exact absurd ⟨parts.1, parts.2, (eq_append_of_splitLastSeq hcut).symm⟩ h
    have hprefix := isPrefixOf?_append (c :: sep) after
    rw [List.cons_append] at hprefix
    rw [List.nil_append, List.cons_append, splitLastSeq, hlater, hprefix]
    rfl
  | cons d before ih => rw [List.cons_append, List.cons_append, splitLastSeq, ih]

theorem splitAll_ne_nil (sep : Char) (cs : List Char) : splitAll sep cs ≠ [] := by
  fun_cases splitAll sep cs <;> simp_all

/-- A text that does not hold the separator is its own only piece. -/
theorem splitAll_of_not_mem {sep : Char} {cs : List Char} (h : sep ∉ cs) :
    splitAll sep cs = [cs] := by
  induction cs with
  | nil => rfl
  | cons c cs ih =>
    have hc : c ≠ sep := fun heq => h (heq ▸ List.mem_cons_self)
    rw [splitAll, if_neg hc, ih fun hmem => h (List.mem_cons_of_mem c hmem)]

/-- What stands before the first separator is the first piece. -/
theorem splitAll_append {sep : Char} {front : List Char} (h : sep ∉ front) (rest : List Char) :
    splitAll sep (front ++ sep :: rest) = front :: splitAll sep rest := by
  induction front with
  | nil => rw [List.nil_append, splitAll, if_pos rfl]
  | cons c front ih =>
    have hc : c ≠ sep := fun heq => h (heq ▸ List.mem_cons_self)
    rw [List.cons_append, splitAll, if_neg hc, ih fun hmem => h (List.mem_cons_of_mem c hmem)]

/-- Texts that do not hold the separator are the pieces of the joined texts. -/
theorem splitAll_join {sep : Char} {texts : List String} (hne : texts ≠ [])
    (h : ∀ t ∈ texts, sep ∉ t.toList) :
    splitAll sep (join (String.singleton sep) texts).toList = texts.map String.toList := by
  induction texts with
  | nil => exact absurd rfl hne
  | cons t rest ih =>
    have ht := h t List.mem_cons_self
    cases rest with
    | nil => rw [join_singleton, splitAll_of_not_mem ht]; rfl
    | cons next rest =>
      have hrest := ih (List.cons_ne_nil next rest) fun s hs => h s (List.mem_cons_of_mem t hs)
      rw [join_cons_cons, String.toList_append, String.toList_append, String.toList_singleton,
        List.append_assoc, List.singleton_append, splitAll_append ht, hrest]
      rfl

end Logbook.Text
