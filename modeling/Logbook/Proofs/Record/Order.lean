import Logbook.Record.Step

/-!
# The order of the entries of a record

The messages of a record stand in the order of their frames, and so do its
fields; none of them lies beyond the cursor, and the cursor lies inside of the
trace, if there is one. `Record.Placed` says so, together with the mark of the
system fields. `Placed.apply` shows that every operation keeps it, and
`placed_ofSteps` that every history of a record reaches it.
-/

namespace Logbook

/-- Entries in the order of their frames, none of them beyond a cursor. -/
structure Ascends (frameOf : α → Nat) (cursor : Nat) (entries : List α) : Prop where
  sorted : entries.Pairwise fun a b => frameOf a ≤ frameOf b
  le_cursor : ∀ a ∈ entries, frameOf a ≤ cursor

namespace Ascends

variable {α : Type} {frameOf : α → Nat} {cursor cursor' : Nat} {entries entries' : List α}

theorem nil : Ascends frameOf cursor [] := ⟨.nil, by simp⟩

/-- The cursor may move outwards. -/
theorem mono (h : Ascends frameOf cursor entries) (hle : cursor ≤ cursor') :
    Ascends frameOf cursor' entries :=
  ⟨h.sorted, fun a ha => Nat.le_trans (h.le_cursor a ha) hle⟩

/-- An entry at the cursor comes last. -/
theorem push (h : Ascends frameOf cursor entries) {a : α} (ha : frameOf a = cursor) :
    Ascends frameOf cursor (entries ++ [a]) := by
  constructor
  · rw [List.pairwise_append]
    refine ⟨h.sorted, List.pairwise_singleton _ a, ?_⟩
    intro b hb c hc
    rw [List.mem_singleton.1 hc, ha]
    exact h.le_cursor b hb
  · intro b hb
    rcases List.mem_append.1 hb with hb | hb
    · exact h.le_cursor b hb
    · rw [List.mem_singleton.1 hb]
      exact Nat.le_of_eq ha

/-- An entry at the first frame may come first. -/
theorem cons (h : Ascends frameOf cursor entries) {a : α} (ha : frameOf a = 0) :
    Ascends frameOf cursor (a :: entries) := by
  constructor
  · rw [List.pairwise_cons]
    exact ⟨fun b _ => by rw [ha]; exact Nat.zero_le _, h.sorted⟩
  · intro b hb
    rcases List.mem_cons.1 hb with rfl | hb
    · rw [ha]
      exact Nat.zero_le cursor
    · exact h.le_cursor b hb

/-- Only the frames of the entries matter. -/
theorem of_map_eq (h : Ascends frameOf cursor entries)
    (heq : entries'.map frameOf = entries.map frameOf) : Ascends frameOf cursor entries' := by
  constructor
  · have hsorted : (entries.map frameOf).Pairwise (· ≤ ·) := List.pairwise_map.2 h.sorted
    rw [← heq] at hsorted
    exact List.pairwise_map.1 hsorted
  · intro a ha
    have hmem : frameOf a ∈ entries.map frameOf := heq ▸ List.mem_map_of_mem ha
    obtain ⟨b, hb, hframe⟩ := List.mem_map.1 hmem
    rw [← hframe]
    exact h.le_cursor b hb

/-- Moving entries and cursor by one monotone function keeps the order. -/
theorem renumber (h : Ascends frameOf cursor entries) {place : Nat → Nat}
    (hplace : ∀ m n, m ≤ n → place m ≤ place n) {moved : α → α}
    (hmoved : ∀ a, frameOf (moved a) = place (frameOf a)) :
    Ascends frameOf (place cursor) (entries.map moved) := by
  constructor
  · rw [List.pairwise_map]
    refine h.sorted.imp ?_
    intro a b hab
    rw [hmoved, hmoved]
    exact hplace _ _ hab
  · intro b hb
    obtain ⟨a, ha, rfl⟩ := List.mem_map.1 hb
    rw [hmoved]
    exact hplace _ _ (h.le_cursor a ha)

end Ascends

namespace Record

variable {r : Record}

theorem clamp_mono (r : Record) (m n : Nat) (h : m ≤ n) : r.clamp m ≤ r.clamp n := by
  unfold clamp
  split
  · exact h
  · omega

theorem clamp_lt (h : r.trace ≠ []) (n : Nat) : r.clamp n < r.trace.length := by
  have hpos := List.length_pos_iff.2 h
  have hempty : r.trace.isEmpty = false := by simpa using h
  rw [clamp, if_neg (by simp [hempty])]
  omega

/-- The cursor of a record whose cursor lies inside of its trace never moves inwards. -/
theorem le_clamp_max (h : r.trace ≠ [] → r.cursor < r.trace.length) (frame : Nat) :
    r.cursor ≤ r.clamp (max frame r.cursor) := by
  unfold clamp
  split
  · omega
  · next hempty =>
    have hlt := h (by simpa using hempty)
    omega

/-- The entries of a record stand in order, its cursor lies inside of its trace,
    and its system fields are marked as such. -/
structure Placed (r : Record) : Prop where
  messages : Ascends Message.frame r.cursor r.messages
  fields : Ascends Field.frame r.cursor r.fields
  marked : ∀ f ∈ r.systemFields, f.system = true
  inside : r.trace ≠ [] → r.cursor < r.trace.length

theorem placed_empty : empty.Placed := ⟨.nil, .nil, by simp [empty], by simp [empty]⟩

namespace Placed

/-- Clamping brings ordered entries inside of any trace. -/
theorem clampEntries (hm : Ascends Message.frame r.cursor r.messages)
    (hf : Ascends Field.frame r.cursor r.fields) (hs : ∀ f ∈ r.systemFields, f.system = true) :
    r.clampEntries.Placed where
  messages := hm.renumber r.clamp_mono fun _ => rfl
  fields := hf.renumber r.clamp_mono fun _ => rfl
  marked := hs
  inside := fun h => clamp_lt h r.cursor

theorem withTrace (h : r.Placed) (trace : Trace) : (r.withTrace trace).Placed :=
  Placed.clampEntries h.messages h.fields h.marked

theorem capture (h : r.Placed) (captured : Trace) : (r.capture captured).Placed := by
  unfold Record.capture
  split
  · exact h
  · exact Placed.clampEntries h.messages h.fields h.marked

theorem moveTo (h : r.Placed) (frame : Nat) : (r.moveTo frame).Placed where
  messages := h.messages.mono (le_clamp_max h.inside frame)
  fields := h.fields.mono (le_clamp_max h.inside frame)
  marked := h.marked
  inside := fun htrace => clamp_lt htrace _

theorem addMessage (h : r.Placed) (body : String) : (r.addMessage body).Placed :=
  ⟨h.messages.push rfl, h.fields, h.marked, h.inside⟩

theorem addField (h : r.Placed) (f : Field) : (r.addField f).Placed :=
  ⟨h.messages, h.fields.push rfl, h.marked, h.inside⟩

theorem addSystemField (h : r.Placed) (f : Field) : (r.addSystemField f).Placed := by
  refine ⟨h.messages, h.fields, ?_, h.inside⟩
  intro g hg
  rcases List.mem_append.1 hg with hg | hg
  · exact h.marked g hg
  · rw [List.mem_singleton.1 hg]
    rfl

theorem putBody (h : r.Placed) (body : String) : (r.putBody body).Placed := by
  have hm := h.messages
  unfold Record.putBody
  split
  · next first rest heq =>
    rw [heq] at hm
    -- a first message at the first frame keeps its place, and another one makes room
    split
    · exact ⟨hm.of_map_eq rfl, h.fields, h.marked, h.inside⟩
    · exact ⟨h.messages.cons rfl, h.fields, h.marked, h.inside⟩
  · exact ⟨Ascends.nil.cons rfl, h.fields, h.marked, h.inside⟩

/-- Every operation keeps the entries in order. -/
theorem apply (h : r.Placed) (s : Step) : (r.apply s).Placed := by
  cases s with
  | withTrace trace => exact h.withTrace trace
  | capture captured => exact h.capture captured
  | advance => exact h.moveTo _
  | moveTo frame => exact h.moveTo frame
  | addMessage body => exact h.addMessage body
  | addField f => exact h.addField f
  | addSystemField f => exact h.addSystemField f
  | putBody body => exact h.putBody body
  | clear => exact placed_empty

theorem run (h : r.Placed) (steps : List Step) : (r.run steps).Placed := by
  induction steps generalizing r with
  | nil => exact h
  | cons s steps ih => exact ih (h.apply s)

/-- While there is a trace, no message lies beyond its last frame. -/
theorem message_inside (h : r.Placed) (htrace : r.trace ≠ []) :
    ∀ m ∈ r.messages, m.frame < r.trace.length :=
  fun m hm => Nat.lt_of_le_of_lt (h.messages.le_cursor m hm) (h.inside htrace)

/-- While there is a trace, no field lies beyond its last frame. -/
theorem field_inside (h : r.Placed) (htrace : r.trace ≠ []) :
    ∀ f ∈ r.fields, f.frame < r.trace.length :=
  fun f hf => Nat.lt_of_le_of_lt (h.fields.le_cursor f hf) (h.inside htrace)

end Placed

/-- The entries of a record stand in order after every history. -/
theorem placed_ofSteps (steps : List Step) : (ofSteps steps).Placed := placed_empty.run steps

/-- The same of a record that may be missing. -/
theorem placed_of_map_ofSteps {steps? : Option (List Step)} {r : Record}
    (h : steps?.map ofSteps = some r) : r.Placed := by
  obtain ⟨steps, _, rfl⟩ := Option.map_eq_some_iff.1 h
  exact placed_ofSteps steps

end Record

end Logbook
