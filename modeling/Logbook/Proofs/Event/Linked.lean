import Logbook.Event.Block
import Logbook.Proofs.Record.Lookup

/-!
# What is shown of a linked error

`Event.walkedFrames` are the frames that a stack trace shows. `Event.linkedMessages`
and `Event.linkedFields` are the messages and the fields that a linked error
shows, in the order in which they were recorded. Where the
entries of the linked error stand in order, the block of a frame holds those
that were recorded at the frame (`atFrame_eq`), a block that reaches outwards
those at its frame and beyond it (`outward_eq`), and the entries of all frames
are all of them (`flatMap_filter_range`).
-/

namespace Logbook

section Frames

variable {α : Type} {frameOf : α → Nat} {entries : List α}

/-- The entries from a frame on are those of the frame and those beyond it. -/
theorem filter_frame_append (hsorted : entries.Pairwise fun a b => frameOf a ≤ frameOf b)
    (n : Nat) :
    entries.filter (fun a => frameOf a = n) ++ entries.filter (fun a => n + 1 ≤ frameOf a) =
      entries.filter fun a => n ≤ frameOf a := by
  induction entries with
  | nil => rfl
  | cons a entries ih =>
    obtain ⟨hhead, htail⟩ := List.pairwise_cons.1 hsorted
    rcases Nat.lt_trichotomy (frameOf a) n with hlt | heq | hgt
    · have hne : ¬ frameOf a = n := Nat.ne_of_lt hlt
      have hle : ¬ n ≤ frameOf a := Nat.not_le.2 hlt
      have hsucc : ¬ n + 1 ≤ frameOf a := by omega
      rw [List.filter_cons_of_neg (by simpa using hne),
        List.filter_cons_of_neg (by simpa using hsucc),
        List.filter_cons_of_neg (by simpa using hle), ih htail]
    · have hsucc : ¬ n + 1 ≤ frameOf a := by omega
      rw [List.filter_cons_of_pos (by simpa using heq),
        List.filter_cons_of_neg (by simpa using hsucc),
        List.filter_cons_of_pos (by simpa using Nat.le_of_eq heq.symm), List.cons_append,
        ih htail]
    · -- no entry behind one beyond the frame belongs to the frame
      have hbehind : ∀ b ∈ entries, frameOf b ≠ n :=
        fun b hb => Nat.ne_of_gt (Nat.lt_of_lt_of_le hgt (hhead b hb))
      have hrest := ih htail
      rw [filter_frame_eq_nil hbehind, List.nil_append] at hrest
      rw [List.filter_cons_of_neg (by simpa using Nat.ne_of_gt hgt),
        filter_frame_eq_nil hbehind, List.nil_append,
        List.filter_cons_of_pos (by simpa using Nat.succ_le_of_lt hgt),
        List.filter_cons_of_pos (by simpa using Nat.le_of_lt hgt), hrest]

/-- Entries in the order of their frames are the entries of the first frames, one
    frame after another, and behind them the entries of all further frames. -/
theorem flatMap_filter_range (hsorted : entries.Pairwise fun a b => frameOf a ≤ frameOf b)
    (n : Nat) :
    (List.range n).flatMap (fun i => entries.filter fun a => frameOf a = i) ++
      entries.filter (fun a => n ≤ frameOf a) = entries := by
  induction n with
  | zero => simp
  | succ n ih =>
    rw [List.range_succ, List.flatMap_append, List.flatMap_singleton, List.append_assoc,
      filter_frame_append hsorted]
    exact ih

end Frames

namespace Record

variable {r : Record}

/-- The messages that are shown for an event with the given body: the body stands
    for the last message, if that is empty, and empty messages are left out. -/
def shownMessages (r : Record) (body : String) : List Message :=
  (r.messages.mapIdx fun i m =>
    if i + 1 = r.messages.length ∧ m.body = "" then { m with body } else m).filter
      fun m => !m.body.isEmpty

/-- Only the last message can make room for a body. -/
theorem messages_withLastBody (r : Record) (body : String) :
    (r.withLastBody body).messages = r.messages.mapIdx fun i m =>
      if i + 1 = r.messages.length ∧ m.body = "" then { m with body } else m := by
  unfold withLastBody
  rcases List.eq_nil_or_concat r.messages with hnil | ⟨front, last, heq⟩
  · simp [hnil]
  · -- the index of the last message is none of those before it
    have hfront : (front.mapIdx fun i m =>
        if i + 1 = (front ++ [last]).length ∧ m.body = "" then { m with body } else m) = front := by
      refine List.ext_getElem (by simp) ?_
      intro i _ hi
      rw [List.getElem_mapIdx, if_neg]
      simp only [List.length_append, List.length_singleton]
      omega
    rw [List.concat_eq_append] at heq
    rw [heq, List.getLast?_concat, List.mapIdx_concat, hfront]
    by_cases hlast : last.body = ""
    · simp [hlast]
    · simp [hlast, heq, String.isEmpty_iff]

theorem fields_withLastBody (r : Record) (body : String) :
    (r.withLastBody body).fields = r.fields := by
  unfold withLastBody
  split
  · split <;> rfl
  · rfl

/-- A body in place of the last message stands at its frame. -/
theorem map_frame_withLastBody (r : Record) (body : String) :
    (r.withLastBody body).messages.map Message.frame = r.messages.map Message.frame := by
  rw [messages_withLastBody]
  refine List.ext_getElem (by simp) ?_
  intro i _ _
  rw [List.getElem_map, List.getElem_map, List.getElem_mapIdx]
  split <;> rfl

theorem Placed.messages_withLastBody_sorted (h : r.Placed) (body : String) :
    (r.withLastBody body).messages.Pairwise fun m m' => m.frame ≤ m'.frame :=
  (h.messages.of_map_eq (map_frame_withLastBody r body)).sorted

theorem Placed.shownMessages_sorted (h : r.Placed) (body : String) :
    (r.shownMessages body).Pairwise fun m m' => m.frame ≤ m'.frame := by
  rw [shownMessages, ← messages_withLastBody]
  exact (h.messages_withLastBody_sorted body).filter _

/-- The texts of some messages are those of the ones that are shown. -/
theorem shownTexts_filter (messages : List Message) (keep : Message → Bool) :
    shownTexts (messages.filter keep) =
      ((messages.filter fun m => !m.body.isEmpty).filter keep).map Message.body := by
  rw [shownTexts, List.filter_map, List.filter_filter, List.filter_filter]
  congr 1
  refine List.filter_congr ?_
  intro m _
  exact Bool.and_comm _ _

theorem Placed.textsBeneath_withLastBody (h : r.Placed) (body : String) (frame : Nat) :
    (r.withLastBody body).textsBeneath frame =
      ((r.shownMessages body).filter fun m => m.frame = frame).map Message.body := by
  rw [textsBeneath, messagesBeneath, runOf_eq_filter (h.messages_withLastBody_sorted body),
    shownTexts_filter, shownMessages, ← messages_withLastBody]

theorem textsOutward_withLastBody (r : Record) (body : String) (frame : Nat) :
    (r.withLastBody body).textsOutward frame =
      ((r.shownMessages body).filter fun m => frame ≤ m.frame).map Message.body := by
  rw [textsOutward, shownTexts_filter, shownMessages, ← messages_withLastBody]

end Record

namespace Event

/-- The frames that a stack trace shows: those of the event if it has any, or else those of
    its linked error. -/
def walkedFrames (e : Event) : List Frame :=
  if e.message.trace = [] then (e.error.map Record.trace).getD [] else e.message.trace

theorem shownTrace_eq (e : Event) : e.shownTrace = e.walkedFrames := by
  rw [shownTrace, walkedFrames, Record.hasTrace]
  cases e.message.trace <;> rfl

/-- The messages that the linked error shows, in the order of their recording. -/
def linkedMessages (e : Event) : List Message :=
  (e.error.map fun r => r.shownMessages e.message.body).getD []

/-- The fields that the linked error shows, in the order of their recording. -/
def linkedFields (keepZeros : Bool) (e : Event) : List Field :=
  ((e.error.map Record.fields).getD []).filter (·.isShown keepZeros)

variable {e : Event} {keepZeros : Bool}

theorem linkedMessages_sorted (h : ∀ r, e.error = some r → r.Placed) :
    e.linkedMessages.Pairwise fun m m' => m.frame ≤ m'.frame := by
  unfold linkedMessages
  cases herror : e.error with
  | none => exact .nil
  | some r => exact (h r herror).shownMessages_sorted _

theorem linkedFields_sorted (h : ∀ r, e.error = some r → r.Placed) :
    (e.linkedFields keepZeros).Pairwise fun f f' => f.frame ≤ f'.frame := by
  unfold linkedFields
  cases herror : e.error with
  | none => exact .nil
  | some r => exact (h r herror).fields.sorted.filter _

/-- The block of a frame holds what the linked error shows of the frame. -/
theorem atFrame_eq (h : ∀ r, e.error = some r → r.Placed) (frame : Frame) (index : Nat) :
    TraceBlock.atFrame keepZeros e.linked? frame index =
      { frame := some frame
        texts := (e.linkedMessages.filter fun m => m.frame = index).map Message.body
        fields := (e.linkedFields keepZeros).filter fun f => f.frame = index } := by
  cases herror : e.error with
  | none => simp [TraceBlock.atFrame, linked?, linkedMessages, linkedFields, herror]
  | some r =>
    have hplaced := h r herror
    simp only [TraceBlock.atFrame, linked?, linkedMessages, linkedFields, herror, Option.map_some,
      Option.getD_some, hplaced.textsBeneath_withLastBody]
    rw [Record.fieldsBeneath, Record.fields_withLastBody, runOf_eq_filter hplaced.fields.sorted,
      List.filter_filter, List.filter_filter]
    simp only [Bool.and_comm]

/-- A block that reaches outwards holds what the linked error shows at a frame and
    beyond it. -/
theorem outward_eq (frame : Option Frame) (index : Nat) :
    TraceBlock.outward keepZeros e.linked? frame index =
      { frame
        texts := (e.linkedMessages.filter fun m => index ≤ m.frame).map Message.body
        fields := (e.linkedFields keepZeros).filter fun f => index ≤ f.frame } := by
  cases herror : e.error with
  | none => simp [TraceBlock.outward, linked?, linkedMessages, linkedFields, herror]
  | some r =>
    simp only [TraceBlock.outward, linked?, linkedMessages, linkedFields, herror, Option.map_some,
      Option.getD_some, Record.textsOutward_withLastBody]
    rw [Record.fieldsOutward, Record.fields_withLastBody, List.filter_filter, List.filter_filter]
    simp only [Bool.and_comm]

end Event

end Logbook
