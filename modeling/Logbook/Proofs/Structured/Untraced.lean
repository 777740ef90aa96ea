import Logbook.Proofs.Structured.ErrorText
import Logbook.Proofs.Structured.Trace

/-!
# Errors without a stack trace in structured log lines

The fields of a linked error stand beneath the frames of the stack trace. Where an
event has a stack trace, its line tells all of them that are rendered
(`tellsLinked_iff`). Without a stack trace the line does not depend on them at all
(`members_withLinkedFields`), while the stack trace verb of a template writes them on
a line of their own.
-/

namespace Logbook

namespace Event

variable {e : Event}

/-- The event with other fields of its linked error. -/
def withLinkedFields (fields : List Field) (e : Event) : Event :=
  { e with error := e.error.map fun r => { r with fields } }

theorem wholeFields_withLinkedFields (fields : List Field) :
    (e.withLinkedFields fields).wholeFields = e.wholeFields := by
  cases herror : e.error <;> simp [wholeFields, withLinkedFields, herror]

theorem shownTrace_withLinkedFields (fields : List Field) :
    (e.withLinkedFields fields).shownTrace = e.shownTrace := by
  cases herror : e.error <;> simp [shownTrace, withLinkedFields, herror]

end Event

namespace Structured

variable {s : Structured} {e : Event}

theorem systemFieldNamed?_withLinkedFields (fields : List Field) (key : String) :
    systemFieldNamed? (e.withLinkedFields fields) key = systemFieldNamed? e key := by
  unfold systemFieldNamed?
  cases herror : e.error with
  | none => simp [Event.withLinkedFields, herror]
  | some r => simp only [Event.withLinkedFields, herror]; rfl

/-- The text of the linked error is the same whatever its fields are. -/
theorem errorText?_withLinkedFields (fields : List Field) :
    errorText? (e.withLinkedFields fields) = errorText? e := by
  cases herror : e.error with
  | none => simp [errorText?, Event.linked?, Event.withLinkedFields, herror]
  | some r =>
    have hother : (e.withLinkedFields fields).error = some { r with fields } := by
      simp [Event.withLinkedFields, herror]
    rw [errorText?_eq herror, errorText?_eq hother]
    rfl

/-- Without a stack trace the members of the line are the same whatever the fields of
    the linked error are. -/
theorem members_withLinkedFields (h : e.shownTrace = []) (fields : List Field) :
    s.members (e.withLinkedFields fields) = s.members e := by
  have htrace : (e.withLinkedFields fields).shownTrace = [] := by
    rw [Event.shownTrace_withLinkedFields, h]
  simp only [members, liftedMembers, systemFieldNamed?_withLinkedFields,
    errorText?_withLinkedFields, listedFields, Event.wholeFields_withLinkedFields, htrace, h,
    List.isEmpty_nil]
  rfl

/-- The line of an event tells a field of the linked error: the object of a frame holds
    it. -/
def TellsLinked (s : Structured) (e : Event) (f : Field) : Prop :=
  ∃ (objects : List Json) (index : Nat) (frame : Frame) (texts : List String)
    (fields : List Field),
    (s.members e).lookup "stacktrace" = some (.array objects) ∧
    objects[index]? = some (frameObject frame texts fields) ∧ f ∈ fields

/-- The rendered fields of the linked error are told exactly if there is a stack trace. -/
theorem tellsLinked_iff (h : ∀ r, e.error = some r → r.Placed) {f : Field}
    (hf : f ∈ e.linkedFields s.keepZeros) : s.TellsLinked e f ↔ e.shownTrace ≠ [] := by
  constructor
  · rintro ⟨objects, index, frame, texts, fields, hlookup, -, -⟩ htrace
    rw [lookup_stacktrace, htrace] at hlookup
    cases hlookup
  · intro htrace
    rw [← Event.flatMap_fieldsHeld h htrace] at hf
    obtain ⟨index, hindex, hheld⟩ := List.mem_flatMap.1 hf
    have hlt : index < e.shownTrace.length := List.mem_range.1 hindex
    have hlookup : (s.members e).lookup "stacktrace" = some (s.traceJson e) := by
      have hsome : List.isEmpty e.shownTrace = false := by simpa using htrace
      rw [lookup_stacktrace, unlessEmpty, hsome]
      rfl
    rw [traceJson_eq s h] at hlookup
    refine ⟨_, index, e.shownTrace[index], e.textsHeld index, _, hlookup, ?_, hheld⟩
    rw [List.getElem?_map, List.getElem?_zipIdx, List.getElem?_eq_getElem hlt]
    simp

/-- Where the rendered fields of the linked error are told, for an event whose records
    were made by histories. The stack trace verb of any template shows all of them. The
    line of the event tells them exactly if there is a stack trace; without one it is the
    same line whatever the fields of the linked error are. -/
theorem linkedFields_told_iff (s : Structured) (level : Level) (time : Calendar.Timestamp)
    (own : List Record.Step) (linked : Option (List Record.Step)) :
    let e : Event := ⟨level, time, .ofSteps own, linked.map .ofSteps⟩
    (∀ (p : Program) (settings : RenderSettings) (verb : VerbStyle),
      settings.keepZeros = s.keepZeros →
      ∃ parts : List TracePart,
        p.renderInstruction settings e (.trace verb) =
          Text.concat (parts.map (TracePart.text (p.traceStyle verb))) ∧
        (parts.filterMap TracePart.entry?).filterMap TraceEntry.field? =
          e.linkedFields s.keepZeros) ∧
    (∀ f ∈ e.linkedFields s.keepZeros, s.TellsLinked e f ↔ e.shownTrace ≠ []) ∧
    (e.shownTrace = [] → ∀ fields, s.encode (e.withLinkedFields fields) = s.encode e) := by
  intro e
  have hplaced : ∀ r, e.error = some r → r.Placed :=
    fun r hr => Record.placed_of_map_ofSteps hr
  refine ⟨?_, fun f hf => tellsLinked_iff hplaced hf, ?_⟩
  · intro p settings verb hzeros
    refine ⟨traceParts (e.traceBlocks settings.keepZeros), TraceStyle.render_eq_concat _ _, ?_⟩
    rw [filterMap_entry_traceParts, Event.flatMap_entries_traceBlocks hplaced,
      Event.filterMap_field_traceEntries hplaced, hzeros]
  · intro htrace fields
    rw [encode, encode, document, document, members_withLinkedFields htrace]

/-- With a frame the line tells the field, and without one no other fields would make a
    difference. -/
theorem linkedFields_told_traced :
    let read : Frame := ⟨"app::read", "io.rs", 4⟩
    let path : Field := ⟨"path", .text "/var/db", 0, false, false⟩
    let traced : Event := ⟨.error, default, .ofSteps [.putBody "one"],
      some (.ofSteps [.withTrace [read], .addMessage "lost", .addField path])⟩
    let untraced : Event := ⟨.error, default, .ofSteps [.putBody "one"],
      some (.ofSteps [.addMessage "lost", .addField path])⟩
    path ∈ traced.linkedFields false ∧ traced.shownTrace ≠ [] ∧ untraced.shownTrace = [] ∧
    ∀ layout,
      (⟨layout, false⟩ : Structured).TellsLinked traced path ∧
      ∀ fields, (⟨layout, false⟩ : Structured).encode (untraced.withLinkedFields fields) =
        (⟨layout, false⟩ : Structured).encode untraced := by
  intro read path traced untraced
  have hpath : path ∈ traced.linkedFields false := List.mem_of_getElem? (i := 0) rfl
  have htraced : traced.shownTrace ≠ [] := by decide
  refine ⟨hpath, htraced, rfl, fun layout => ⟨?_, ?_⟩⟩
  · obtain ⟨-, htold, -⟩ := linkedFields_told_iff ⟨layout, false⟩ .error default
      [.putBody "one"] (some [.withTrace [read], .addMessage "lost", .addField path])
    exact (htold path hpath).2 htraced
  · obtain ⟨-, -, hsame⟩ := linkedFields_told_iff ⟨layout, false⟩ .error default
      [.putBody "one"] (some [.addMessage "lost", .addField path])
    exact hsame rfl

/-- The field of an error without a trace is rendered, and the stack trace verb of a
    template writes it. In neither layout does its name or its value occur in the line,
    which is that of the error without the field. -/
theorem linkedFields_untold :
    let path : Field := ⟨"path", .text "/var/db", 0, false, false⟩
    let lost : RecordedError := .make 1 "lost" []
    let event : RecordedError → Event := fun error =>
      ((Event.new .error default).withMessage "one").link error.record
    let e := event (lost.annotated path)
    e.shownTrace = [] ∧ e.linkedFields false = [path] ∧
    (Template.ofText "\x7b\x7bs\x7d\x7d" ⟨.none, false⟩).encode e = "lost\n\tpath=/var/db" ∧
    ∀ layout,
      (⟨layout, false⟩ : Structured).encode e =
        "\x7b\"level\":\"error\",\"level_value\":3,\"time\":\"1970-01-01T00:00:00Z\"," ++
          "\"message\":\"one\",\"error_id\":1,\"error\":\"lost\"\x7d\n" ∧
      (⟨layout, false⟩ : Structured).encode e =
        (⟨layout, false⟩ : Structured).encode (event lost) := by
  intro path lost event e
  refine ⟨rfl, rfl, by decide +kernel, ?_⟩
  intro layout
  cases layout <;> exact ⟨by decide +kernel, by decide +kernel⟩

end Structured

end Logbook
