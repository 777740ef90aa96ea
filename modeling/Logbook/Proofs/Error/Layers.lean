import Logbook.Event.Basic

/-!
# The layers of an error

An error begins with one message, and every message around it is a layer further
out: one frame further out than the one before, as far as the trace reaches
(`layerFrame`). `Record.layered` is the record of an error told by its layers, and
every operation on an error is one on its layers: `layered_wrap` adds a layer, and
`layered_addField` puts a field on the outermost one. So `RecordedError.record_wrapped`
tells the record of any error, and `Chain.recordInto_layers` says that recording a
chain of errors makes the record of the error that was wrapped in its texts.
-/

namespace Logbook

/-- The frame of the layer with a number, counted from the innermost one: the frame with
    the same number, as far as the trace reaches. The number of a frame is a word, and
    there are no more layers than words. -/
def layerFrame (trace : Trace) (number : Nat) : Nat :=
  let frame := min number (UInt64.size - 1)
  if trace.isEmpty then frame else min frame (trace.length - 1)

/-- The messages of an error whose texts are given from the innermost one outwards. -/
def layerMessages (trace : Trace) (texts : List String) : List Message :=
  texts.zipIdx.map fun (body, number) => ⟨body, layerFrame trace number⟩

namespace Record

/-- The record of an error with the given trace, the text of its innermost message,
    those of the messages around it, its fields with the numbers of their layers, and
    its system fields. -/
def layered (trace : Trace) (innermost : String) (outwards : List String)
    (fields : List (Field × Nat)) (systemFields : List Field) : Record where
  trace
  messages := layerMessages trace (innermost :: outwards)
  fields := fields.map fun (f, number) => f.atFrame (layerFrame trace number)
  systemFields
  cursor := layerFrame trace outwards.length

variable {trace : Trace} {innermost : String} {outwards : List String}
  {fields : List (Field × Nat)} {systemFields : List Field}

/-- One frame further out than the outermost layer is the frame of the next one. -/
theorem advance_layered :
    (layered trace innermost outwards fields systemFields).advance =
      { layered trace innermost outwards fields systemFields with
        cursor := layerFrame trace (outwards.length + 1) } := by
  have hcursor : (layered trace innermost outwards fields systemFields).advance.cursor =
      layerFrame trace (outwards.length + 1) := by
    simp only [advance, moveTo, clamp, layered, layerFrame, UInt64.size]
    split <;> omega
  rw [← hcursor]
  rfl

/-- A message around an error is a layer more. -/
theorem layered_wrap (body : String) :
    (layered trace innermost outwards fields systemFields).wrap body =
      layered trace innermost (outwards ++ [body]) fields systemFields := by
  rw [wrap, advance_layered, addMessage]
  simp [layered, layerMessages, List.zipIdx_append, Nat.add_comm]

/-- Messages around an error are layers more. -/
theorem foldl_wrap_layered (bodies : List String) :
    bodies.foldl wrap (layered trace innermost outwards fields systemFields) =
      layered trace innermost (outwards ++ bodies) fields systemFields := by
  induction bodies generalizing outwards with
  | nil => rw [List.append_nil]; rfl
  | cons body rest ih => rw [List.foldl_cons, layered_wrap, ih, List.append_assoc]; rfl

/-- A field of an error is one of its outermost layer. -/
theorem layered_addField (f : Field) :
    (layered trace innermost outwards fields systemFields).addField f =
      layered trace innermost outwards (fields ++ [(f, outwards.length)]) systemFields := by
  simp [addField, layered]

theorem layered_addSystemField (f : Field) :
    (layered trace innermost outwards fields systemFields).addSystemField f =
      layered trace innermost outwards fields (systemFields ++ [f.asSystem]) := rfl

/-- The first message of a record without entries is its innermost layer. -/
theorem addMessage_capture_empty (captured : Trace) (body : String) :
    (empty.capture captured).addMessage body = layered captured body [] [] [] := by
  simp [empty, capture, hasTrace, clampEntries, clamp, addMessage, layered, layerMessages,
    layerFrame]

end Record

namespace RecordedError

/-- The system field with the number of an error. -/
def numberField (id : Nat) : Field := ⟨errorNumberKey, .nat64 (.ofNat id), 0, true, false⟩

namespace Step

/-- The text of the message that a step puts around an error. -/
def text? : Step → Option String
  | wrap message => some message
  | _ => none

/-- The system fields that a step adds. -/
def systemFields : Step → List Field
  | classify classId className =>
    [(Field.make classNumberKey (.nat32 classId)).asSystem,
      (Field.make classNameKey (.text className)).asSystem]
  | _ => []

/-- The fields that steps add to an error whose outermost layer has the given number,
    each with the number of the layer that is the outermost then. -/
def fieldsFrom (number : Nat) : List Step → List (Field × Nat)
  | [] => []
  | wrap _ :: rest => fieldsFrom (number + 1) rest
  | field f :: rest => (f, number) :: fieldsFrom number rest
  | classify _ _ :: rest => fieldsFrom number rest

end Step

theorem record_make (id : Nat) (message : String) (captured : Trace) :
    (make id message captured).record = .layered captured message [] [] [numberField id] := by
  rw [make, Record.addMessage_capture_empty, Record.layered_addSystemField]
  rfl

/-- What steps do to the layers of an error. -/
theorem record_run {e : RecordedError} {trace : Trace} {innermost : String}
    {outwards : List String} {fields : List (Field × Nat)} {systemFields : List Field}
    (h : e.record = .layered trace innermost outwards fields systemFields) (steps : List Step) :
    (e.run steps).record =
      .layered trace innermost (outwards ++ steps.filterMap Step.text?)
        (fields ++ Step.fieldsFrom outwards.length steps)
        (systemFields ++ steps.flatMap Step.systemFields) := by
  induction steps generalizing e outwards fields systemFields with
  | nil => simpa [run, Step.fieldsFrom] using h
  | cons step rest ih =>
    change ((e.apply step).run rest).record = _
    cases step with
    | wrap message =>
      have hnext : (e.wrap message).record =
          .layered trace innermost (outwards ++ [message]) fields systemFields := by
        rw [wrap, h, Record.layered_wrap]
      rw [apply, ih hnext]
      simp [Step.text?, Step.fieldsFrom, Step.systemFields]
    | field f =>
      have hnext : (e.annotated f).record =
          .layered trace innermost outwards (fields ++ [(f, outwards.length)]) systemFields := by
        rw [annotated, h, Record.layered_addField]
      rw [apply, ih hnext]
      simp [List.filterMap_cons, Step.text?, Step.fieldsFrom, Step.systemFields]
    | classify classId className =>
      have hnext : (e.classified classId className).record =
          .layered trace innermost outwards fields
            (systemFields ++ Step.systemFields (.classify classId className)) := by
        rw [classified, h, Record.layered_addSystemField, Record.layered_addSystemField,
          List.append_assoc]
        rfl
      rw [apply, ih hnext]
      simp [List.filterMap_cons, Step.text?, Step.fieldsFrom]

theorem id_run (e : RecordedError) (steps : List Step) : (e.run steps).id = e.id := by
  induction steps generalizing e with
  | nil => rfl
  | cons step rest ih =>
    cases step with
    | wrap message => exact ih (e.wrap message)
    | field f => exact ih (e.annotated f)
    | classify classId className => exact ih (e.classified classId className)

/-- Messages around an error only change its record. -/
theorem foldl_wrap (e : RecordedError) (messages : List String) :
    messages.foldl wrap e = { e with record := messages.foldl Record.wrap e.record } := by
  induction messages generalizing e with
  | nil => rfl
  | cons message rest ih => exact ih (e.wrap message)

/-- The layers of an error with further messages around it. -/
theorem record_wrapped (id : Nat) (message : String) (captured : Trace) (steps : List Step)
    (messages : List String) :
    (messages.foldl wrap ((make id message captured).run steps)).record =
      .layered captured message (steps.filterMap Step.text? ++ messages) (Step.fieldsFrom 0 steps)
        (numberField id :: steps.flatMap Step.systemFields) := by
  have herror := record_run (record_make id message captured) steps
  rw [foldl_wrap, herror]
  exact Record.foldl_wrap_layered messages

end RecordedError

namespace Chain

/-- A chain with plain errors only has their texts as its layers. -/
theorem recordInto_plain (innermost : String) (outwards : List String) :
    recordInto ⟨(innermost :: outwards).reverse, none⟩ .empty =
      .layered [] innermost outwards [] [] := by
  have hfirst : Record.empty.addMessage innermost = .layered [] innermost [] [] [] := rfl
  simp only [recordInto, List.reverse_reverse]
  rw [hfirst, Record.foldl_wrap_layered, List.nil_append]

/-- Recording a chain of plain errors that a recorded error caused makes the record of
    that error with their texts wrapped around it, the innermost one first, both in an
    empty record and in whatever slot of an event. Its number, trace, fields and system
    fields are those of the error. Every message is a layer: it stands as many frames
    further out than the first one as there are messages between, or at the last frame of
    the trace. Every field stands where the last message before it does. A chain that no
    recorded error caused has its texts as layers, the innermost one first, and nothing
    else. -/
theorem recordInto_layers :
    (∀ (id : Nat) (message : String) (captured : Trace) (steps : List RecordedError.Step)
        (links : List String),
      let error := (RecordedError.make id message captured).run steps
      let wrapped := links.reverse.foldl RecordedError.wrap error
      let chain : Chain := ⟨links, some error⟩
      recordInto chain .empty = wrapped.record ∧
      (∀ e : Event, (e.attach recordInto chain).error = some wrapped.record) ∧
      error.id = id ∧ wrapped.id = id ∧
      wrapped.record.systemFieldNamed? errorNumberKey = some (RecordedError.numberField id) ∧
      error.record.trace = captured ∧ wrapped.record.trace = captured ∧
      wrapped.record.fields = error.record.fields ∧
      wrapped.record.systemFields = error.record.systemFields ∧
      wrapped.record.messages =
        layerMessages captured
          (message :: steps.filterMap RecordedError.Step.text? ++ links.reverse) ∧
      error.record.fields =
        (RecordedError.Step.fieldsFrom 0 steps).map
          fun (f, number) => f.atFrame (layerFrame captured number)) ∧
    (∀ (innermost : String) (outwards : List String),
      let chain : Chain := ⟨(innermost :: outwards).reverse, none⟩
      let plain := recordInto chain .empty
      (∀ e : Event, (e.attach recordInto chain).error = some plain) ∧
      plain.trace = [] ∧ plain.fields = [] ∧ plain.systemFields = [] ∧
      plain.messages = layerMessages [] (innermost :: outwards)) ∧
    ∀ (trace : Trace) (number : Nat), number < UInt64.size →
      layerFrame trace number = if trace = [] then number else min number (trace.length - 1) := by
  refine ⟨?_, ?_, ?_⟩
  · intro id message captured steps links error wrapped chain
    have herror := RecordedError.record_wrapped id message captured steps []
    have hrecord := RecordedError.record_wrapped id message captured steps links.reverse
    change error.record = _ at herror
    change wrapped.record = _ at hrecord
    have hwrapped : wrapped =
        { error with record := links.reverse.foldl Record.wrap error.record } :=
      RecordedError.foldl_wrap error links.reverse
    have hchain : ∀ into, recordInto chain into = wrapped.record := by
      intro into
      rw [hwrapped]
      rfl
    have hid : error.id = id := RecordedError.id_run _ steps
    refine ⟨hchain .empty, fun e => congrArg some (hchain _), hid, ?_, ?_, ?_, ?_, ?_, ?_, ?_,
      ?_⟩
    · rw [hwrapped]
      exact hid
    · rw [hrecord]
      exact List.find?_cons_of_pos (decide_eq_true rfl)
    · rw [herror]; rfl
    · rw [hrecord]; rfl
    · rw [hrecord, herror]; rfl
    · rw [hrecord, herror]; rfl
    · rw [hrecord]; rfl
    · rw [herror]; rfl
  · intro innermost outwards chain plain
    have hplain : plain = .layered [] innermost outwards [] [] :=
      recordInto_plain innermost outwards
    refine ⟨fun e => rfl, ?_, ?_, ?_, ?_⟩ <;> rw [hplain] <;> rfl
  · intro trace number hnumber
    simp only [layerFrame, List.isEmpty_iff]
    rw [Nat.min_eq_left (by omega)]

example :
    let frame (name : String) : Frame := ⟨name, "app.rs", 1⟩
    let inner := RecordedError.make 1 "inner" [frame "read", frame "load", frame "main"]
    (recordInto ⟨["outermost", "outer"], some (inner.wrap "middle")⟩ .empty).messages =
      [⟨"inner", 0⟩, ⟨"middle", 1⟩, ⟨"outer", 2⟩, ⟨"outermost", 2⟩] := by decide

end Chain

end Logbook
