import Logbook.Proofs.Event.Linked

/-!
# Events without their hidden fields

`Event.withoutHidden` is an event without the fields that are not rendered, in
its own record and in the linked one. What is shown of an event does not depend
on them: its blocks are the same, and so are the fields of the event as a whole
that are rendered.
-/

namespace Logbook

namespace Record

variable {r : Record} {keepZeros : Bool}

/-- The record without the fields that are not rendered. -/
def withoutHidden (keepZeros : Bool) (r : Record) : Record :=
  { r with
    fields := r.fields.filter (·.isShown keepZeros)
    systemFields := r.systemFields.filter (·.isShown keepZeros) }

theorem Placed.withoutHidden (h : r.Placed) : (r.withoutHidden keepZeros).Placed where
  messages := h.messages
  fields :=
    ⟨h.fields.sorted.filter _, fun f hf => h.fields.le_cursor f (List.mem_filter.1 hf).1⟩
  marked := fun f hf => h.marked f (List.mem_filter.1 hf).1
  inside := h.inside

/-- The system field of a name is still there if it is rendered. -/
theorem systemFieldNamed?_withoutHidden {key : String} {f : Field}
    (h : r.systemFieldNamed? key = some f) (hshown : f.isShown keepZeros = true) :
    (r.withoutHidden keepZeros).systemFieldNamed? key = some f := by
  obtain ⟨hkey, before, behind, hsplit, hbefore⟩ := List.find?_eq_some_iff_append.1 h
  refine List.find?_eq_some_iff_append.2
    ⟨hkey, before.filter (·.isShown keepZeros), behind.filter (·.isShown keepZeros), ?_, ?_⟩
  · simp [Record.withoutHidden, hsplit, hshown]
  · intro g hg
    exact hbefore g (List.mem_filter.1 hg).1

theorem systemFieldNamed?_withoutHidden_eq_none {key : String}
    (h : r.systemFieldNamed? key = none) :
    (r.withoutHidden keepZeros).systemFieldNamed? key = none := by
  refine List.find?_eq_none.2 ?_
  intro f hf
  exact List.find?_eq_none.1 h f (List.mem_filter.1 hf).1

end Record

namespace Event

variable {e : Event} {keepZeros : Bool}

/-- The event without the fields that are not rendered. -/
def withoutHidden (keepZeros : Bool) (e : Event) : Event :=
  { e with
    message := e.message.withoutHidden keepZeros
    error := e.error.map (·.withoutHidden keepZeros) }

theorem placed_withoutHidden (h : ∀ r, e.error = some r → r.Placed) :
    ∀ r, (e.withoutHidden keepZeros).error = some r → r.Placed := by
  intro r hr
  obtain ⟨linked, hlinked, rfl⟩ := Option.map_eq_some_iff.1 hr
  exact (h linked hlinked).withoutHidden

@[simp] theorem shownTrace_withoutHidden :
    (e.withoutHidden keepZeros).shownTrace = e.shownTrace := by
  unfold shownTrace
  cases herror : e.error with
  | none => simp [withoutHidden, herror, Record.withoutHidden, Record.hasTrace]
  | some r => simp [withoutHidden, herror, Record.withoutHidden, Record.hasTrace]

@[simp] theorem linkedMessages_withoutHidden :
    (e.withoutHidden keepZeros).linkedMessages = e.linkedMessages := by
  unfold linkedMessages
  cases herror : e.error with
  | none => simp [withoutHidden, herror]
  | some r => simp [withoutHidden, herror, Record.withoutHidden, Record.shownMessages, Record.body]

@[simp] theorem linkedFields_withoutHidden :
    (e.withoutHidden keepZeros).linkedFields keepZeros = e.linkedFields keepZeros := by
  unfold linkedFields
  cases herror : e.error with
  | none => simp [withoutHidden, herror]
  | some r => simp [withoutHidden, herror, Record.withoutHidden, List.filter_filter]

/-- The fields of the event as a whole that are rendered are all that is left of them. -/
@[simp] theorem wholeFields_withoutHidden :
    (e.withoutHidden keepZeros).wholeFields = e.wholeFields.filter (·.isShown keepZeros) := by
  unfold wholeFields
  cases herror : e.error <;> simp [withoutHidden, herror, Record.withoutHidden]

theorem traceBlocks_withoutHidden (h : ∀ r, e.error = some r → r.Placed) :
    (e.withoutHidden keepZeros).traceBlocks keepZeros = e.traceBlocks keepZeros := by
  unfold traceBlocks
  simp only [atFrame_eq h, atFrame_eq (placed_withoutHidden h), outward_eq,
    shownTrace_withoutHidden, linkedMessages_withoutHidden, linkedFields_withoutHidden]

theorem framedBlocks_withoutHidden (h : ∀ r, e.error = some r → r.Placed) :
    (e.withoutHidden keepZeros).framedBlocks keepZeros = e.framedBlocks keepZeros := by
  unfold framedBlocks
  simp only [atFrame_eq h, atFrame_eq (placed_withoutHidden h), outward_eq,
    shownTrace_withoutHidden, linkedMessages_withoutHidden, linkedFields_withoutHidden]

end Event

end Logbook
