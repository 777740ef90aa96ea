import Logbook.Proofs.Event.Linked
import Logbook.Proofs.Template.Rows

/-!
# The parts of a shown stack trace

The text of a stack trace is made of parts: the entries that are shown, and the
texts of the style around and between them. `TracePart` names them, `traceParts`
puts them in a row, and `render_eq_concat` says that the row is the text.
`filterMap_entry_traceParts` reads the shown entries back from it, and
`renderInstruction_trace` joins both with what the blocks of an event hold.
-/

namespace Logbook

/-- Joining the pieces of runs is joining the runs. -/
theorem Text.concat_map_flatMap {α β : Type} (text : β → String) (pieces : α → List β)
    (items : List α) :
    Text.concat ((items.flatMap pieces).map text) =
      Text.concat (items.map fun item => Text.concat ((pieces item).map text)) := by
  induction items with
  | nil => rfl
  | cons item items ih =>
    rw [List.flatMap_cons, List.map_append, Text.concat_append, ih, List.map_cons, Text.concat_cons]

theorem flatMap_zipIdx_snd {α β : Type} (items : List α) (pieces : Nat → List β) :
    items.zipIdx.flatMap (fun item => pieces item.2) =
      (List.range items.length).flatMap pieces := by
  rw [List.range_eq_range', ← List.zipIdx_map_snd 0 items, List.flatMap_map]

/-- What a stack trace shows: its frames, and the messages and fields of a linked
    error. -/
inductive TraceEntry where
  | frame (f : Frame)
  | message (body : String)
  | field (f : Field)

namespace TraceEntry

/-- The message that is shown. -/
def message? : TraceEntry → Option String
  | message body => some body
  | _ => none

/-- The field that is shown. -/
def field? : TraceEntry → Option Field
  | field f => some f
  | _ => none

end TraceEntry

/-- The entries of a block, in their order. -/
def TraceBlock.entries (b : TraceBlock) : List TraceEntry :=
  b.frame.toList.map .frame ++ b.texts.map .message ++ b.fields.map .field

/-- A part of the text of a stack trace: a text of the style, or an entry, which is
    for a field the field and its position among those that stand with it. -/
inductive TracePart where
  | before
  | after
  | frameBreak
  | messageBreak
  | fieldBreak
  | fieldGap (position : Nat)
  | frame (f : Frame)
  | message (body : String)
  | field (f : Field) (position : Nat)

namespace TracePart

def text (style : TraceStyle) : TracePart → String
  | before => style.verb.before
  | after => style.verb.after
  | frameBreak => style.verb.afterValue ++ style.verb.lineBreak.getD "\n"
  | messageBreak => style.verb.errorLineBreak.getD "\n\t"
  | fieldBreak => style.fields.lineBreak
  | fieldGap position => style.fields.writtenGap position
  | frame f => style.frame.render f
  | message body => body
  | field f position => style.fields.writtenItem f position

/-- The entry that a part shows, if it is no text of the style. -/
def entry? : TracePart → Option TraceEntry
  | frame f => some (.frame f)
  | message body => some (.message body)
  | field f _ => some (.field f)
  | _ => none

/-- The part stands before or behind everything else. -/
def isOuter : TracePart → Bool
  | before | after => true
  | _ => false

/-- The parts of messages, each on a line of its own. -/
def ofMessages : Bool → List String → List TracePart
  | _, [] => []
  | begun, body :: rest =>
    (if begun then [messageBreak] else []) ++ message body :: ofMessages true rest

/-- The parts of fields on a line of their own. -/
def ofFields (begun : Bool) (fields : List Field) : List TracePart :=
  if fields.isEmpty then []
  else
    (if begun then [fieldBreak] else []) ++
      fields.zipIdx.flatMap fun (f, position) => [fieldGap position, field f position]

/-- The parts of a block behind others, if any. -/
def ofBlock (begun : Bool) (b : TraceBlock) : List TracePart :=
  let frames :=
    match b.frame with
    | some f => (if begun then [frameBreak] else []) ++ [frame f]
    | none => []
  let begun := begun || b.frame.isSome
  frames ++ ofMessages begun b.texts ++ ofFields (begun || !b.texts.isEmpty) b.fields

theorem concat_ofMessages (style : TraceStyle) (begun : Bool) (texts : List String) :
    Text.concat ((ofMessages begun texts).map (text style)) =
      (if begun && !texts.isEmpty then style.verb.errorLineBreakText else "") ++
        Text.join style.verb.errorLineBreakText texts := by
  rw [VerbStyle.errorLineBreakText]
  induction texts generalizing begun with
  | nil => simp [ofMessages]
  | cons body rest ih =>
    -- joining puts the break before every text but the first
    cases rest with
    | nil => cases begun <;> simp [ofMessages, text]
    | cons next rest =>
      have hrest := ih true
      cases begun <;>
        simp [ofMessages, text, Text.join_cons_cons, String.append_assoc] at hrest ⊢ <;>
        rw [hrest]

theorem concat_ofFields (style : TraceStyle) (begun : Bool) (fields : List Field) :
    Text.concat ((ofFields begun fields).map (text style)) =
      style.fields.renderBeneath begun fields := by
  unfold ofFields FieldStyle.renderBeneath
  split
  · rfl
  · rw [List.map_append, Text.concat_append, Text.concat_map_flatMap, FieldStyle.render]
    simp only [FieldStyle.gapBefore_eq, FieldStyle.item_eq]
    cases begun <;> simp [text]

theorem concat_ofBlock (style : TraceStyle) (begun : Bool) (b : TraceBlock) :
    Text.concat ((ofBlock begun b).map (text style)) = style.renderBlock begun b := by
  unfold ofBlock TraceStyle.renderBlock
  simp only [List.map_append, Text.concat_append, concat_ofMessages, concat_ofFields]
  cases b.frame with
  | none => rfl
  | some f => cases begun <;> simp [text, VerbStyle.lineBreakText]

theorem filterMap_entry_ofMessages (begun : Bool) (texts : List String) :
    (ofMessages begun texts).filterMap entry? = texts.map .message := by
  induction texts generalizing begun with
  | nil => rfl
  | cons body rest ih => cases begun <;> simp [ofMessages, List.filterMap_cons, entry?, ih]

theorem filterMap_entry_ofFields (begun : Bool) (fields : List Field) :
    (ofFields begun fields).filterMap entry? = fields.map .field := by
  have hpairs : ∀ start, (fields.zipIdx start).flatMap (fun (f, position) =>
      [fieldGap position, field f position].filterMap entry?) = fields.map .field := by
    induction fields with
    | nil => intro start; rfl
    | cons f rest ih =>
      intro start
      rw [List.zipIdx_cons, List.flatMap_cons, ih (start + 1)]
      rfl
  unfold ofFields
  split
  · next hnil => simp [List.isEmpty_iff.1 hnil]
  · rw [List.filterMap_append, List.filterMap_flatMap, hpairs 0]
    cases begun <;> rfl

/-- The parts of a block show its entries. -/
theorem filterMap_entry_ofBlock (begun : Bool) (b : TraceBlock) :
    (ofBlock begun b).filterMap entry? = b.entries := by
  unfold ofBlock TraceBlock.entries
  simp only [List.filterMap_append, filterMap_entry_ofMessages, filterMap_entry_ofFields]
  cases b.frame with
  | none => rfl
  | some f => cases begun <;> rfl

theorem isOuter_ofMessages {begun : Bool} {texts : List String} {part : TracePart}
    (h : part ∈ ofMessages begun texts) : part.isOuter = false := by
  induction texts generalizing begun with
  | nil => simp [ofMessages] at h
  | cons body rest ih =>
    simp only [ofMessages, List.mem_append, List.mem_cons] at h
    rcases h with h | rfl | h
    · cases begun <;> simp_all [isOuter]
    · rfl
    · exact ih h

theorem isOuter_ofFields {begun : Bool} {fields : List Field} {part : TracePart}
    (h : part ∈ ofFields begun fields) : part.isOuter = false := by
  unfold ofFields at h
  split at h
  · simp at h
  · rcases List.mem_append.1 h with h | h
    · cases begun <;> simp_all [isOuter]
    · obtain ⟨⟨f, position⟩, _, h⟩ := List.mem_flatMap.1 h
      simp only [List.mem_cons, List.not_mem_nil, or_false] at h
      rcases h with rfl | rfl <;> rfl

/-- The texts around everything else do not occur inside of blocks. -/
theorem isOuter_ofBlock {begun : Bool} {b : TraceBlock} {part : TracePart}
    (h : part ∈ ofBlock begun b) : part.isOuter = false := by
  simp only [ofBlock, List.mem_append] at h
  rcases h with (h | h) | h
  · cases hframe : b.frame with
    | none => simp [hframe] at h
    | some f =>
      rw [hframe] at h
      rcases List.mem_append.1 h with h | h
      · cases begun <;> simp_all [isOuter]
      · rw [List.mem_singleton.1 h]
        rfl
  · exact isOuter_ofMessages h
  · exact isOuter_ofFields h

end TracePart

/-- The parts of the text of a stack trace. -/
def traceParts : List TraceBlock → List TracePart
  | [] => []
  | first :: rest =>
    .before :: (TracePart.ofBlock false first ++ rest.flatMap (TracePart.ofBlock true)) ++ [.after]

theorem TraceStyle.render_eq_concat (style : TraceStyle) (blocks : List TraceBlock) :
    style.render blocks = Text.concat ((traceParts blocks).map (TracePart.text style)) := by
  cases blocks with
  | nil => rfl
  | cons first rest =>
    have hrest : Text.concat ((rest.flatMap (TracePart.ofBlock true)).map (TracePart.text style)) =
        Text.concat (rest.map (style.renderBlock true)) := by
      rw [Text.concat_map_flatMap]
      simp only [TracePart.concat_ofBlock]
    simp only [traceParts, List.cons_append, List.map_cons, List.map_append, Text.concat_cons,
      Text.concat_append, hrest, TracePart.concat_ofBlock, List.map_nil, Text.concat_nil,
      TracePart.text, TraceStyle.render, String.append_assoc, String.append_empty]

theorem filterMap_entry_traceParts (blocks : List TraceBlock) :
    (traceParts blocks).filterMap TracePart.entry? = blocks.flatMap TraceBlock.entries := by
  cases blocks with
  | nil => rfl
  | cons first rest =>
    have hrest : (rest.flatMap (TracePart.ofBlock true)).filterMap TracePart.entry? =
        rest.flatMap TraceBlock.entries := by
      rw [List.filterMap_flatMap]
      simp only [TracePart.filterMap_entry_ofBlock]
    rw [traceParts, List.filterMap_append, List.filterMap_cons_none rfl, List.filterMap_append,
      TracePart.filterMap_entry_ofBlock, hrest, List.flatMap_cons]
    exact List.append_nil _

/-- The texts around a stack trace stand at its two ends and nowhere else. -/
theorem traceParts_eq_outer {blocks : List TraceBlock} (h : blocks ≠ []) :
    ∃ inner, traceParts blocks = .before :: inner ++ [.after] ∧
      ∀ part ∈ inner, part.isOuter = false := by
  cases blocks with
  | nil => exact absurd rfl h
  | cons first rest =>
    refine ⟨_, rfl, ?_⟩
    intro part hpart
    rcases List.mem_append.1 hpart with hpart | hpart
    · exact TracePart.isOuter_ofBlock hpart
    · obtain ⟨b, _, hb⟩ := List.mem_flatMap.1 hpart
      exact TracePart.isOuter_ofBlock hb

namespace Event

variable {e : Event} {keepZeros : Bool}

/-- What the linked error shows of the frames that are chosen: its messages, and
    behind them its fields. -/
def linkedEntries (keepZeros : Bool) (e : Event) (chosen : Nat → Bool) : List TraceEntry :=
  ((e.linkedMessages.filter fun m => chosen m.frame).map fun m => .message m.body) ++
    ((e.linkedFields keepZeros).filter fun f => chosen f.frame).map .field

/-- What the stack trace of an event shows: every frame with what the linked error
    shows of it, and then what the linked error shows beyond the last frame. -/
def traceEntries (keepZeros : Bool) (e : Event) : List TraceEntry :=
  e.walkedFrames.zipIdx.flatMap (fun (f, index) =>
      .frame f :: e.linkedEntries keepZeros fun frame => frame = index) ++
    e.linkedEntries keepZeros fun frame => e.walkedFrames.length ≤ frame

theorem entries_block (frame : Option Frame) (chosen : Nat → Bool) :
    ({ frame
       texts := (e.linkedMessages.filter fun m => chosen m.frame).map Message.body
       fields := (e.linkedFields keepZeros).filter fun f => chosen f.frame } : TraceBlock).entries =
      frame.toList.map .frame ++ e.linkedEntries keepZeros chosen := by
  rw [TraceBlock.entries, linkedEntries, List.map_map, List.append_assoc]
  rfl

/-- The blocks of an event hold what its stack trace shows. -/
theorem flatMap_entries_traceBlocks (h : ∀ r, e.error = some r → r.Placed) :
    (e.traceBlocks keepZeros).flatMap TraceBlock.entries = e.traceEntries keepZeros := by
  have hframes : (e.walkedFrames.zipIdx.map fun (frame, index) =>
        TraceBlock.atFrame keepZeros e.linked? frame index).flatMap TraceBlock.entries =
      e.walkedFrames.zipIdx.flatMap fun (f, index) =>
        .frame f :: e.linkedEntries keepZeros fun frame => frame = index := by
    rw [List.flatMap_map]
    congr 1
    funext ⟨f, index⟩
    change (TraceBlock.atFrame keepZeros e.linked? f index).entries = _
    rw [atFrame_eq h]
    exact entries_block (some f) fun frame => frame = index
  have hbeyond : (TraceBlock.outward keepZeros e.linked? none e.walkedFrames.length).entries =
      e.linkedEntries keepZeros fun frame => e.walkedFrames.length ≤ frame := by
    rw [outward_eq]
    exact entries_block none fun frame => e.walkedFrames.length ≤ frame
  unfold traceBlocks traceEntries
  rw [shownTrace_eq, List.flatMap_append, hframes, ← hbeyond]
  congr 1
  split
  · next hempty =>
    simp only [TraceBlock.isEmpty, Bool.and_eq_true, List.isEmpty_iff, Option.isNone_iff_eq_none]
      at hempty
    rw [TraceBlock.entries, hempty.1.1, hempty.1.2, hempty.2]
    rfl
  · rw [List.flatMap_singleton]

/-- There is no block exactly where there is nothing to show. -/
theorem traceBlocks_eq_nil_iff :
    e.traceBlocks keepZeros = [] ↔
      e.walkedFrames = [] ∧ e.linkedMessages = [] ∧ e.linkedFields keepZeros = [] := by
  unfold traceBlocks
  simp only [shownTrace_eq, List.append_eq_nil_iff, List.map_eq_nil_iff, List.zipIdx_eq_nil_iff]
  refine and_congr_right ?_
  intro hnil
  rw [outward_eq, hnil]
  simp [TraceBlock.isEmpty, List.eq_nil_iff_forall_not_mem]

theorem filterMap_message_linkedEntries (chosen : Nat → Bool) :
    (e.linkedEntries keepZeros chosen).filterMap TraceEntry.message? =
      (e.linkedMessages.filter fun m => chosen m.frame).map Message.body := by
  have hfields : ∀ fields : List Field,
      (fields.map TraceEntry.field).filterMap TraceEntry.message? = [] := by
    intro fields
    rw [List.filterMap_map]
    exact List.filterMap_eq_nil_iff.2 fun _ _ => rfl
  rw [linkedEntries, List.filterMap_append, hfields, List.append_nil, List.filterMap_map]
  exact congrFun List.filterMap_eq_map _

theorem filterMap_field_linkedEntries (chosen : Nat → Bool) :
    (e.linkedEntries keepZeros chosen).filterMap TraceEntry.field? =
      (e.linkedFields keepZeros).filter fun f => chosen f.frame := by
  have hmessages : ∀ messages : List Message,
      (messages.map fun m => TraceEntry.message m.body).filterMap TraceEntry.field? = [] := by
    intro messages
    rw [List.filterMap_map]
    exact List.filterMap_eq_nil_iff.2 fun _ _ => rfl
  rw [linkedEntries, List.filterMap_append, hmessages, List.nil_append, List.filterMap_map]
  exact List.filterMap_some

/-- Over all frames and beyond them, what is shown frame by frame is what is shown. -/
theorem filterMap_traceEntries {α : Type} (read? : TraceEntry → Option α) {β : Type}
    (hframe : ∀ f, read? (.frame f) = none) {frameOf : β → Nat} {shown : List β} {value : β → α}
    (hsorted : shown.Pairwise fun a b => frameOf a ≤ frameOf b)
    (hlinked : ∀ chosen : Nat → Bool, (e.linkedEntries keepZeros chosen).filterMap read? =
      (shown.filter fun a => chosen (frameOf a)).map value) :
    (e.traceEntries keepZeros).filterMap read? = shown.map value := by
  have hframes : (e.walkedFrames.zipIdx.flatMap fun (f, index) =>
        .frame f :: e.linkedEntries keepZeros fun frame => frame = index).filterMap read? =
      ((List.range e.walkedFrames.length).flatMap fun index =>
        shown.filter fun a => frameOf a = index).map value := by
    rw [List.filterMap_flatMap, List.map_flatMap, ← flatMap_zipIdx_snd]
    congr 1
    funext ⟨f, index⟩
    rw [List.filterMap_cons_none (hframe f)]
    exact hlinked fun frame => frame = index
  rw [traceEntries, List.filterMap_append, hframes, hlinked, ← List.map_append]
  simp only [flatMap_filter_range hsorted e.walkedFrames.length]

end Event

/-- The text of the stack trace of an event whose records were made by histories.
    It is a row of parts, of which those that are no text of the style show every
    frame, beneath each one the messages of the linked error at the frame and then
    the fields, and behind the last one what the linked error holds beyond it. Over
    the whole text every message and every field that is shown occurs once, in the
    order of recording. The texts around the stack trace stand at the two ends, or
    nothing is written where there is nothing to show. -/
theorem renderInstruction_trace (p : Program) (settings : RenderSettings) (verb : VerbStyle)
    (level : Level) (time : Calendar.Timestamp) (own : List Record.Step)
    (linked : Option (List Record.Step)) :
    let e : Event := ⟨level, time, .ofSteps own, linked.map .ofSteps⟩
    ∃ parts : List TracePart,
      p.renderInstruction settings e (.trace verb) =
        Text.concat (parts.map (TracePart.text ⟨verb, p.frameLayout, p.frameRows verb⟩)) ∧
      parts.filterMap TracePart.entry? = e.traceEntries settings.keepZeros ∧
      (e.traceEntries settings.keepZeros).filterMap TraceEntry.message? =
        e.linkedMessages.map Message.body ∧
      (e.traceEntries settings.keepZeros).filterMap TraceEntry.field? =
        e.linkedFields settings.keepZeros ∧
      (e.walkedFrames = [] ∧ e.linkedMessages = [] ∧ e.linkedFields settings.keepZeros = [] ∧
          p.renderInstruction settings e (.trace verb) = "" ∨
        ¬(e.walkedFrames = [] ∧ e.linkedMessages = [] ∧ e.linkedFields settings.keepZeros = []) ∧
          ∃ inner, parts = .before :: inner ++ [.after] ∧
            ∀ part ∈ inner, part.isOuter = false) := by
  intro e
  have hplaced : ∀ r, e.error = some r → r.Placed := by
    intro r hr
    obtain ⟨steps, _, rfl⟩ := Option.map_eq_some_iff.1 hr
    exact Record.placed_ofSteps steps
  refine ⟨traceParts (e.traceBlocks settings.keepZeros), ?_, ?_, ?_, ?_, ?_⟩
  · rw [← p.fields_traceStyle verb]
    exact TraceStyle.render_eq_concat (p.traceStyle verb) _
  · rw [filterMap_entry_traceParts, Event.flatMap_entries_traceBlocks hplaced]
  · exact Event.filterMap_traceEntries _ (fun _ => rfl) (Event.linkedMessages_sorted hplaced)
      Event.filterMap_message_linkedEntries
  · have hfields : (e.traceEntries settings.keepZeros).filterMap TraceEntry.field? =
        (e.linkedFields settings.keepZeros).map id :=
      Event.filterMap_traceEntries _ (fun _ => rfl) (Event.linkedFields_sorted hplaced)
        fun chosen => by
          rw [List.map_id]
          exact Event.filterMap_field_linkedEntries chosen
    rw [hfields, List.map_id]
  · by_cases hnil : e.traceBlocks settings.keepZeros = []
    · obtain ⟨hframes, hmessages, hfields⟩ := Event.traceBlocks_eq_nil_iff.1 hnil
      refine .inl ⟨hframes, hmessages, hfields, ?_⟩
      rw [Program.renderInstruction, hnil]
      rfl
    · exact .inr ⟨fun h => hnil (Event.traceBlocks_eq_nil_iff.2 h), traceParts_eq_outer hnil⟩

/-- An error without a trace holds entries at both frames of the event's own trace and
    beyond them: an empty message and a field without a value are not shown, and the body of
    the event stands for the empty last message. Where the event has no trace that of the
    error is shown, and without any frame what the error shows stands alone. -/
theorem renderInstruction_trace_beyond :
    let inner : Frame := ⟨"app::read", "io.rs", 4⟩
    let outer : Frame := ⟨"app::main", "main.rs", 9⟩
    let size : Field := ⟨"size", .nat8 3, 0, false, false⟩
    let lost : Field := ⟨"lost", .invalid, 0, false, false⟩
    let verb : VerbStyle := ⟨"<", ">", "", "", ",", none, none, 0, false⟩
    let p : Program := ⟨[.trace verb], .standard⟩
    let write : Event → String := fun e => p.renderInstruction ⟨.standard, false⟩ e (.trace verb)
    let own : Event := ⟨.error, default, .ofSteps [.putBody "failed", .withTrace [inner, outer]],
      some (.ofSteps [.addMessage "lost", .addField size, .addField lost, .moveTo 1,
        .addMessage "", .addMessage "again", .moveTo 5, .addField size, .addMessage ""])⟩
    let linked : Event := ⟨.error, default, .ofSteps [.putBody "failed"],
      some (.ofSteps [.withTrace [inner], .addMessage "lost"])⟩
    let alone : Event := ⟨.error, default, .ofSteps [.putBody "failed"],
      some (.ofSteps [.addField size, .addMessage ""])⟩
    write own = "<app::read (io.rs:4)\n\tlost\n\tsize=3," ++
      "\napp::main (main.rs:9)\n\tagain\n\tfailed\n\tsize=3>" ∧
    (∃ parts : List TracePart,
      write own = Text.concat (parts.map (TracePart.text ⟨verb, p.frameLayout, p.frameRows verb⟩)) ∧
      parts.filterMap TracePart.entry? =
        [.frame inner, .message "lost", .field size, .frame outer, .message "again",
          .message "failed", .field (size.atFrame 5)]) ∧
    write linked = "<app::read (io.rs:4)\n\tlost>" ∧ write alone = "<failed\n\tsize=3>" ∧
    write (.new .error default) = "" := by
  intro inner outer size lost verb p write own linked alone
  obtain ⟨parts, htext, hentries, -⟩ := renderInstruction_trace p ⟨.standard, false⟩ verb .error
    default [.putBody "failed", .withTrace [inner, outer]]
    (some [.addMessage "lost", .addField size, .addField lost, .moveTo 1, .addMessage "",
      .addMessage "again", .moveTo 5, .addField size, .addMessage ""])
  have hmessages : own.linkedMessages = [⟨"lost", 0⟩, ⟨"again", 1⟩, ⟨"failed", 5⟩] := rfl
  have hfields : own.linkedFields false = [size, size.atFrame 5] := rfl
  have hframes : own.walkedFrames = [inner, outer] := rfl
  refine ⟨by decide +kernel, ⟨parts, htext, hentries.trans ?_⟩, by decide +kernel,
    by decide +kernel, by decide +kernel⟩
  change own.traceEntries false = _
  simp [Event.traceEntries, Event.linkedEntries, hmessages, hfields, hframes, size, Field.atFrame]

end Logbook
