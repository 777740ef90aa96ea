import Logbook.Proofs.Record.Order

/-!
# The entries of a frame

Halving finds the entries of a frame among entries in the order of their frames:
`lowerBound_bracket` says between which entries it ends, and `runOf_eq_filter`
that the run behind that place holds the entries of the frame and no others.
`ofSteps_entries` says so of every record that a history makes.
-/

namespace Logbook

variable {α : Type} {frameOf : α → Nat} {frame : Nat} {entries : List α}

theorem frame_le_of_le (h : entries.Pairwise fun a b => frameOf a ≤ frameOf b) {i j : Nat}
    (hij : i ≤ j) (hj : j < entries.length) : frameOf entries[i] ≤ frameOf entries[j] := by
  rcases Nat.lt_or_eq_of_le hij with hlt | rfl
  · exact List.pairwise_iff_getElem.1 h i j (by omega) hj hlt
  · exact Nat.le_refl _

/-- The entries before `low` lie below a frame, and those from `high` on do not. -/
structure Bracket (frameOf : α → Nat) (frame : Nat) (entries : List α) (low high : Nat) :
    Prop where
  le : low ≤ high
  le_length : high ≤ entries.length
  below : ∀ i (h : i < entries.length), i < low → frameOf entries[i] < frame
  above : ∀ i (h : i < entries.length), high ≤ i → frame ≤ frameOf entries[i]

namespace Bracket

variable {low high : Nat}

/-- An entry below the frame takes everything before it to the lower part. -/
theorem raise (h : Bracket frameOf frame entries low high)
    (hsorted : entries.Pairwise fun a b => frameOf a ≤ frameOf b) (mid : Nat) (hmid : mid < high)
    (hbelow : ∀ hlt : mid < entries.length, frameOf entries[mid] < frame) :
    Bracket frameOf frame entries (mid + 1) high where
  le := hmid
  le_length := h.le_length
  below := by
    intro i hi hlt
    have hlen : mid < entries.length := Nat.lt_of_lt_of_le hmid h.le_length
    exact Nat.lt_of_le_of_lt (frame_le_of_le hsorted (by omega) hlen) (hbelow hlen)
  above := h.above

/-- An entry not below the frame takes everything behind it to the upper part. -/
theorem lower (h : Bracket frameOf frame entries low high)
    (hsorted : entries.Pairwise fun a b => frameOf a ≤ frameOf b) {mid : Nat} (hlow : low ≤ mid)
    (hmid : mid < high) (habove : ∀ hlt : mid < entries.length, frame ≤ frameOf entries[mid]) :
    Bracket frameOf frame entries low mid where
  le := hlow
  le_length := Nat.le_trans (Nat.le_of_lt hmid) h.le_length
  below := h.below
  above := by
    intro i hi hle
    have hlen : mid < entries.length := Nat.lt_of_lt_of_le hmid h.le_length
    exact Nat.le_trans (habove hlen) (frame_le_of_le hsorted hle hi)

end Bracket

/-- Halving ends where the entries of lower frames end. -/
theorem lowerBound_bracket (hsorted : entries.Pairwise fun a b => frameOf a ≤ frameOf b)
    {low count : Nat} (h : Bracket frameOf frame entries low (low + count)) :
    Bracket frameOf frame entries (lowerBound frameOf frame entries low count)
      (lowerBound frameOf frame entries low count) := by
  fun_induction lowerBound frameOf frame entries low count with
  | case1 low => exact h
  | case2 low count hcount half entry hget hlt ih =>
    obtain ⟨hlen, rfl⟩ := List.getElem?_eq_some_iff.1 hget
    refine ih ?_
    have hnext := h.raise hsorted (low + half) (by omega) fun _ => hlt
    have hhigh : low + half + 1 + (count - half - 1) = low + count := by omega
    rw [hhigh]
    exact hnext
  | case3 low count hcount half entry hget hge ih =>
    obtain ⟨hlen, rfl⟩ := List.getElem?_eq_some_iff.1 hget
    exact ih (h.lower hsorted (by omega) (by omega) fun _ => Nat.le_of_not_lt hge)
  | case4 low count hcount half hget =>
    -- the middle place lies inside of the list, so that there is an entry at it
    have hle := h.le_length
    rw [List.getElem?_eq_none_iff] at hget
    omega

theorem filter_frame_eq_nil (h : ∀ a ∈ entries, frameOf a ≠ frame) :
    entries.filter (fun a => frameOf a = frame) = [] := by
  rw [List.filter_eq_nil_iff]
  intro a ha heq
  exact h a ha (of_decide_eq_true heq)

/-- Among entries of at least a frame in order, those of the frame come first. -/
theorem takeWhile_eq_filter (hsorted : entries.Pairwise fun a b => frameOf a ≤ frameOf b)
    (hge : ∀ a ∈ entries, frame ≤ frameOf a) :
    entries.takeWhile (fun a => frameOf a = frame) =
      entries.filter fun a => frameOf a = frame := by
  induction entries with
  | nil => rfl
  | cons a entries ih =>
    obtain ⟨hhead, htail⟩ := List.pairwise_cons.1 hsorted
    by_cases ha : frameOf a = frame
    · have hge' : ∀ b ∈ entries, frame ≤ frameOf b := fun b hb => hge b (List.mem_cons_of_mem a hb)
      rw [List.takeWhile_cons_of_pos (by simpa using ha),
        List.filter_cons_of_pos (by simpa using ha), ih htail hge']
    · have hgt : frame < frameOf a :=
        Nat.lt_of_le_of_ne (hge a List.mem_cons_self) (Ne.symm ha)
      have hbehind : ∀ b ∈ entries, frameOf b ≠ frame :=
        fun b hb => Nat.ne_of_gt (Nat.lt_of_lt_of_le hgt (hhead b hb))
      rw [List.takeWhile_cons_of_neg (by simpa using ha),
        List.filter_cons_of_neg (by simpa using ha), filter_frame_eq_nil hbehind]

/-- Among entries in order, halving finds the entries of a frame. -/
theorem runOf_eq_filter (hsorted : entries.Pairwise fun a b => frameOf a ≤ frameOf b) :
    runOf frameOf frame entries = entries.filter fun a => frameOf a = frame := by
  have hstart : Bracket frameOf frame entries 0 (0 + entries.length) :=
    ⟨Nat.zero_le _, by omega, fun i _ hi => absurd hi (Nat.not_lt_zero i), fun i hi hle => by omega⟩
  have hend := lowerBound_bracket hsorted hstart
  unfold runOf
  generalize lowerBound frameOf frame entries 0 entries.length = place at hend ⊢
  have hbefore : (entries.take place).filter (fun a => frameOf a = frame) = [] := by
    refine filter_frame_eq_nil ?_
    intro a ha
    obtain ⟨i, hi, rfl⟩ := List.mem_take_iff_getElem.1 ha
    exact Nat.ne_of_lt (hend.below i (by omega) (by omega))
  have hbehind : ∀ a ∈ entries.drop place, frame ≤ frameOf a := by
    intro a ha
    obtain ⟨i, hi, rfl⟩ := List.mem_drop_iff_getElem.1 ha
    exact hend.above (place + i) (by omega) (by omega)
  calc (entries.drop place).takeWhile (fun a => frameOf a = frame)
      = (entries.drop place).filter fun a => frameOf a = frame :=
        takeWhile_eq_filter (hsorted.drop) hbehind
    _ = (entries.take place ++ entries.drop place).filter fun a => frameOf a = frame := by
        rw [List.filter_append, hbefore, List.nil_append]
    _ = entries.filter fun a => frameOf a = frame := by rw [List.take_append_drop]

namespace Record

variable {r : Record}

theorem Placed.messagesBeneath_eq (h : r.Placed) (frame : Nat) :
    r.messagesBeneath frame = r.messages.filter fun m => m.frame = frame :=
  runOf_eq_filter h.messages.sorted

theorem Placed.fieldsBeneath_eq (h : r.Placed) (frame : Nat) :
    r.fieldsBeneath frame = r.fields.filter fun f => f.frame = frame :=
  runOf_eq_filter h.fields.sorted

/-- After every history of a record its messages and its fields stand in the
    order of their frames and none lies beyond the cursor, its system fields are
    marked, and while there is a trace, all of them and the cursor lie inside of
    it. The entries that are found at a frame are those of the frame, in order. -/
theorem ofSteps_entries (steps : List Step) :
    let r := ofSteps steps
    (r.messages.Pairwise fun m m' => m.frame ≤ m'.frame) ∧
    (r.fields.Pairwise fun f f' => f.frame ≤ f'.frame) ∧
    (∀ m ∈ r.messages, m.frame ≤ r.cursor) ∧
    (∀ f ∈ r.fields, f.frame ≤ r.cursor) ∧
    (∀ f ∈ r.systemFields, f.system = true) ∧
    (r.trace ≠ [] →
      (∀ m ∈ r.messages, m.frame < r.trace.length) ∧
      (∀ f ∈ r.fields, f.frame < r.trace.length) ∧ r.cursor < r.trace.length) ∧
    ∀ frame,
      r.messagesBeneath frame = (r.messages.filter fun m => m.frame = frame) ∧
      r.fieldsBeneath frame = r.fields.filter fun f => f.frame = frame := by
  intro r
  have h : r.Placed := placed_ofSteps steps
  refine ⟨h.messages.sorted, h.fields.sorted, h.messages.le_cursor, h.fields.le_cursor,
    h.marked, ?_, ?_⟩
  · intro htrace
    exact ⟨h.message_inside htrace, h.field_inside htrace, h.inside htrace⟩
  · intro frame
    exact ⟨h.messagesBeneath_eq frame, h.fieldsBeneath_eq frame⟩

end Record

end Logbook
