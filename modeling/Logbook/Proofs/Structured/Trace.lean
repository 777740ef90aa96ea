import Logbook.Proofs.Structured.Members
import Logbook.Proofs.Template.Trace

/-!
# The stack trace of a structured log line

The stack trace is an array with one object for every frame. The object of a
frame holds what the linked error shows at the frame, and that of the last frame
also what it shows beyond. `flatMap_heldAt` says that the entries of all frames
are all entries in their order, and `members_stacktrace` that the line tells
them, and that they are the ones that a template writes.
-/

namespace Logbook

/-- Whether the object at an index, of `count` objects, holds the entries of a frame:
    each one holds those of its own frame, and the last one also those beyond. -/
def heldAt (count index frame : Nat) : Bool :=
  if index + 1 = count then index ≤ frame else frame = index

/-- Over all frames, the entries that each one holds are all entries in order. -/
theorem flatMap_heldAt {α : Type} {frameOf : α → Nat} {entries : List α}
    (hsorted : entries.Pairwise fun a b => frameOf a ≤ frameOf b) {count : Nat} (h : 0 < count) :
    (List.range count).flatMap
      (fun index => entries.filter fun a => heldAt count index (frameOf a)) = entries := by
  obtain ⟨last, rfl⟩ : ∃ last, count = last + 1 := ⟨count - 1, by omega⟩
  have hlast : (entries.filter fun a => heldAt (last + 1) last (frameOf a)) =
      entries.filter fun a => last ≤ frameOf a := by
    simp [heldAt]
  have hinner : ∀ index ∈ List.range last,
      (entries.filter fun a => heldAt (last + 1) index (frameOf a)) =
        entries.filter fun a => frameOf a = index := by
    intro index hindex
    have hne : index ≠ last := Nat.ne_of_lt (List.mem_range.1 hindex)
    simp [heldAt, hne]
  calc (List.range (last + 1)).flatMap
        (fun index => entries.filter fun a => heldAt (last + 1) index (frameOf a))
      = (List.range last).flatMap (fun index => entries.filter fun a => frameOf a = index) ++
          entries.filter fun a => last ≤ frameOf a := by
        rw [List.range_succ, List.flatMap_append, List.flatMap_singleton, hlast]
        congr 1
        rw [List.flatMap_def, List.flatMap_def, List.map_congr_left hinner]
    _ = entries := flatMap_filter_range hsorted last

namespace Event

/-- The texts of the linked error that the object of a frame holds. -/
def textsHeld (e : Event) (index : Nat) : List String :=
  (e.linkedMessages.filter fun m => heldAt e.shownTrace.length index m.frame).map Message.body

/-- The fields of the linked error that the object of a frame holds. -/
def fieldsHeld (keepZeros : Bool) (e : Event) (index : Nat) : List Field :=
  (e.linkedFields keepZeros).filter fun f => heldAt e.shownTrace.length index f.frame

variable {e : Event} {keepZeros : Bool}

/-- The block of every frame holds the entries of the linked error that belong to it. -/
theorem framedBlocks_eq (h : ∀ r, e.error = some r → r.Placed) :
    e.framedBlocks keepZeros = e.shownTrace.zipIdx.map fun (frame, index) =>
      { frame := some frame, texts := e.textsHeld index,
        fields := e.fieldsHeld keepZeros index } := by
  unfold framedBlocks
  refine List.map_congr_left ?_
  rintro ⟨frame, index⟩ -
  unfold textsHeld fieldsHeld
  by_cases hlast : index + 1 = e.shownTrace.length
  · simp only [hlast, if_true, outward_eq, heldAt]
  · simp only [hlast, if_false, atFrame_eq h, heldAt]

theorem flatMap_fieldsHeld (h : ∀ r, e.error = some r → r.Placed) (htrace : e.shownTrace ≠ []) :
    (List.range e.shownTrace.length).flatMap (e.fieldsHeld keepZeros) = e.linkedFields keepZeros :=
  flatMap_heldAt (linkedFields_sorted h) (List.length_pos_iff.2 htrace)

/-- The fields of a shown stack trace are those that the linked error shows. -/
theorem filterMap_field_traceEntries (h : ∀ r, e.error = some r → r.Placed) :
    (e.traceEntries keepZeros).filterMap TraceEntry.field? = e.linkedFields keepZeros := by
  have hid : ∀ chosen : Nat → Bool,
      (e.linkedEntries keepZeros chosen).filterMap TraceEntry.field? =
        ((e.linkedFields keepZeros).filter fun f => chosen f.frame).map id := by
    intro chosen
    rw [List.map_id]
    exact filterMap_field_linkedEntries chosen
  rw [filterMap_traceEntries _ (fun _ => rfl) (linkedFields_sorted h) hid, List.map_id]

end Event

namespace Structured

/-- The object of a field at its place: its key and its value. -/
def fieldObject (f : Field) (position : Nat) : Json :=
  .object [("key", .text (f.writtenKey position)), ("value", f.value.toJson)]

/-- The object of a frame with some texts and fields beneath it. -/
def frameObject (frame : Frame) (texts : List String) (fields : List Field) : Json :=
  .object <|
    [("func", .text frame.function), ("file", .text (frame.file ++ ":" ++ frame.lineText)),
      ("package", .text frame.package)] ++
    (if texts = [] then [] else [("message", .text (Text.join "; " texts))]) ++
    if fields = [] then []
    else [("fields", .array (fields.zipIdx.map fun (f, position) => fieldObject f position))]

theorem fieldList_eq (fields : List Field) :
    fieldList fields =
      .array (fields.zipIdx.map fun (f, position) => fieldObject f position) := by
  simp only [fieldList, Field.label_eq]
  rfl

theorem blockJson_eq (frame : Frame) (b : TraceBlock) :
    blockJson frame b = frameObject frame b.texts b.fields := by
  unfold blockJson frameObject
  rw [fieldList_eq]
  congr 3
  · cases b.texts <;> simp [member, unlessEmpty]
  · cases b.fields <;> simp [member, unlessEmpty]

theorem traceJson_eq (s : Structured) {e : Event} (h : ∀ r, e.error = some r → r.Placed) :
    s.traceJson e = .array (e.shownTrace.zipIdx.map fun (frame, index) =>
      frameObject frame (e.textsHeld index) (e.fieldsHeld s.keepZeros index)) := by
  unfold traceJson
  rw [Event.framedBlocks_eq h, List.filterMap_map, ← List.filterMap_eq_map]
  congr 2
  funext ⟨frame, index⟩
  simp [blockJson_eq]

end Structured

end Logbook
