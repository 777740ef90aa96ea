import Mathlib.Data.List.Basic
import Logbook.Proofs.Event.Hidden
import Logbook.Proofs.Structured.Members
import Logbook.Template.Encoder

/-!
# The lifted fields of a structured log line

A system field with the number or the class of an error is a member of its own.
Which field is lifted is decided by its name alone, and which fields are left out
of the list of fields by the name and the mark of the system. Neither decision
asks whether the field is rendered, and they are not the complement of each other.
So a line can hold a field that is not rendered, where a template never does, and
it can lack a field that is rendered.
-/

namespace Logbook

/-- Without the fields that are not rendered, a template writes the same. -/
theorem Template.encode_withoutHidden (t : Template) {e : Event}
    (h : ∀ r, e.error = some r → r.Placed) :
    t.encode (e.withoutHidden t.settings.keepZeros) = t.encode e := by
  have hinstruction : ∀ i, t.program.renderInstruction t.settings
      (e.withoutHidden t.settings.keepZeros) i = t.program.renderInstruction t.settings e i := by
    intro i
    cases i with
    | fields style =>
      simp only [Program.renderInstruction, VerbStyle.fieldsText, Event.wholeFields_withoutHidden,
        List.filter_filter, Bool.and_self]
    | trace style =>
      simp only [Program.renderInstruction, Event.traceBlocks_withoutHidden h]
    | caller style =>
      simp only [Program.renderInstruction, VerbStyle.callerText, Event.shownTrace_withoutHidden]
    | literal text => rfl
    | color text => rfl
    | levelColor => rfl
    | level style => rfl
    | time layout => rfl
    | body style => rfl
  unfold encode Program.render
  rw [funext hinstruction]

namespace Structured

variable {s : Structured} {e : Event}

/-- Where the field that is lifted is rendered, it is lifted also without the others. -/
theorem systemFieldNamed?_withoutHidden {keepZeros : Bool} {key : String} {f : Field}
    (h : systemFieldNamed? e key = some f) (hshown : f.isShown keepZeros = true) :
    systemFieldNamed? (e.withoutHidden keepZeros) key = some f := by
  unfold systemFieldNamed? at h ⊢
  rcases Option.or_eq_some_iff.1 h with hown | ⟨hown, hlinked⟩
  · refine Option.or_eq_some_iff.2 (.inl ?_)
    exact Record.systemFieldNamed?_withoutHidden hown hshown
  · refine Option.or_eq_some_iff.2 (.inr ⟨?_, ?_⟩)
    · exact Record.systemFieldNamed?_withoutHidden_eq_none hown
    · obtain ⟨r, hr, hfield⟩ := Option.bind_eq_some_iff.1 hlinked
      refine Option.bind_eq_some_iff.2 ⟨r.withoutHidden keepZeros, ?_, ?_⟩
      · simp [Event.withoutHidden, hr]
      · exact Record.systemFieldNamed?_withoutHidden hfield hshown

theorem systemFieldNamed?_withoutHidden_eq_none {keepZeros : Bool} {key : String}
    (h : systemFieldNamed? e key = none) :
    systemFieldNamed? (e.withoutHidden keepZeros) key = none := by
  unfold systemFieldNamed? at h ⊢
  obtain ⟨hown, hlinked⟩ := Option.or_eq_none_iff.1 h
  refine Option.or_eq_none_iff.2 ⟨Record.systemFieldNamed?_withoutHidden_eq_none hown, ?_⟩
  refine Option.bind_eq_none_iff.2 ?_
  intro r hr
  obtain ⟨linked, hlinkedRecord, rfl⟩ := Option.map_eq_some_iff.1 hr
  exact Record.systemFieldNamed?_withoutHidden_eq_none
    (Option.bind_eq_none_iff.1 hlinked linked hlinkedRecord)

theorem errorText?_withoutHidden {keepZeros : Bool} :
    errorText? (e.withoutHidden keepZeros) = errorText? e := by
  unfold errorText?
  cases herror : e.error with
  | none => simp [Event.linked?, Event.withoutHidden, herror]
  | some r =>
    simp only [Event.linked?, Event.withoutHidden, herror, Option.map_some,
      Record.textsOutward_withLastBody]
    rfl

theorem listedFields_withoutHidden :
    s.listedFields (e.withoutHidden s.keepZeros) = s.listedFields e := by
  simp only [listedFields, Event.wholeFields_withoutHidden, List.filter_filter, Bool.and_self]

/-- The lines of an event with and without the fields that are not rendered differ at
    most in the members for the number and the class of an error. -/
theorem members_withoutHidden (h : ∀ r, e.error = some r → r.Placed) :
    ∃ front behind : List (String × Json),
      s.members e = front ++ liftedMembers e ++ behind ∧
      s.members (e.withoutHidden s.keepZeros) =
        front ++ liftedMembers (e.withoutHidden s.keepZeros) ++ behind := by
  refine ⟨_, _, by simp only [members, List.append_assoc]; rfl, ?_⟩
  have htrace : s.traceJson (e.withoutHidden s.keepZeros) = s.traceJson e := by
    simp only [traceJson, Event.framedBlocks_withoutHidden h]
  simp only [members, errorText?_withoutHidden, listedFields_withoutHidden, htrace,
    Event.shownTrace_withoutHidden, List.append_assoc]
  rfl

/-- The line is the same without the fields that are not rendered exactly if the same
    values are lifted. -/
theorem document_withoutHidden_eq_iff (h : ∀ r, e.error = some r → r.Placed) :
    s.document (e.withoutHidden s.keepZeros) = s.document e ↔
      ∀ key ∈ liftedKeys, liftedValue? (e.withoutHidden s.keepZeros) key = liftedValue? e key := by
  constructor
  · intro hdocument key hkey
    have hmembers : s.members (e.withoutHidden s.keepZeros) = s.members e :=
      Json.object.inj hdocument
    rw [← lookup_lifted s e hkey, ← lookup_lifted s _ hkey, hmembers]
  · intro hvalues
    obtain ⟨front, behind, he, hwithout⟩ := members_withoutHidden (s := s) h
    have hlifted : liftedMembers (e.withoutHidden s.keepZeros) = liftedMembers e := by
      rw [liftedMembers_eq, liftedMembers_eq]
      refine List.filterMap_congr ?_
      intro key hkey
      rw [hvalues key hkey]
    rw [document, document, he, hwithout, hlifted]

/-- What an event whose records were made by histories shows of the fields that are
    not rendered. A template shows nothing of them. A structured line shows nothing of
    them outside of the members for the number and the class of an error; there the
    first system field of the name stands, whether it is rendered or not, so that the
    line is the same without the hidden fields exactly if the same values are lifted
    without them, as they are where every lifted field is rendered. -/
theorem encodings_withoutHidden (level : Level) (time : Calendar.Timestamp)
    (own : List Record.Step) (linked : Option (List Record.Step)) :
    let e : Event := ⟨level, time, .ofSteps own, linked.map .ofSteps⟩
    (∀ t : Template, t.encode (e.withoutHidden t.settings.keepZeros) = t.encode e) ∧
    ∀ s : Structured,
      (∃ front behind : List (String × Json),
        s.members e = front ++ liftedMembers e ++ behind ∧
        s.members (e.withoutHidden s.keepZeros) =
          front ++ liftedMembers (e.withoutHidden s.keepZeros) ++ behind) ∧
      (∀ key ∈ liftedKeys, ∀ f, systemFieldNamed? e key = some f →
        (s.members e).lookup key = some f.value.toJson) ∧
      (s.document (e.withoutHidden s.keepZeros) = s.document e ↔
        ∀ key ∈ liftedKeys,
          liftedValue? (e.withoutHidden s.keepZeros) key = liftedValue? e key) ∧
      ((∀ key ∈ liftedKeys, ∀ f, systemFieldNamed? e key = some f →
          f.isShown s.keepZeros = true) →
        s.encode (e.withoutHidden s.keepZeros) = s.encode e) := by
  intro e
  have hplaced : ∀ r, e.error = some r → r.Placed :=
    fun r hr => Record.placed_of_map_ofSteps hr
  refine ⟨fun t => t.encode_withoutHidden hplaced, fun s => ?_⟩
  refine ⟨members_withoutHidden hplaced, ?_, document_withoutHidden_eq_iff hplaced, ?_⟩
  · intro key hkey f hf
    rw [lookup_lifted s e hkey, liftedValue?, hf]
    rfl
  · intro hshown
    have hvalues : ∀ key ∈ liftedKeys,
        liftedValue? (e.withoutHidden s.keepZeros) key = liftedValue? e key := by
      intro key hkey
      unfold liftedValue?
      cases hf : systemFieldNamed? e key with
      | none => rw [systemFieldNamed?_withoutHidden_eq_none hf]
      | some f => rw [systemFieldNamed?_withoutHidden hf (hshown key hkey f hf)]
    rw [encode, encode, (document_withoutHidden_eq_iff hplaced).2 hvalues]

/-- A system field whose value could not be taken is never rendered, and yet it is a
    member of the line. -/
theorem encodings_hidden :
    let unusable : Field := ⟨"error_class_id", .invalid, 0, true, false⟩
    let e : Event := ⟨.error, default, .ofSteps [.addSystemField unusable], none⟩
    unusable.isShown false = false ∧ unusable.isShown true = false ∧
    e.wholeFields = [unusable] ∧
    ((⟨.list, false⟩ : Structured).members e).lookup "error_class_id" = some .null ∧
    (⟨.list, false⟩ : Structured).encode (e.withoutHidden false) ≠
      (⟨.list, false⟩ : Structured).encode e := by
  refine ⟨by decide, by decide, rfl, rfl, by decide +kernel⟩

/-- The entries of the fields of a line, in either layout, as names and values. -/
def entries : Json → List (String × Json)
  | .array objects =>
    objects.filterMap fun
      | .object [("key", .text name), ("value", value)] => some (name, value)
      | _ => none
  | .object members => members
  | _ => []

/-- The name of the entry of a field at a position. -/
def entryName (layout : FieldsLayout) (f : Field) (position : Nat) : String :=
  match layout with
  | .list => f.label position
  | .flat => String.ofList (Text.digits f.frame) ++ "." ++ f.label position

theorem entries_fieldsJson (layout : FieldsLayout) (fields : List Field) :
    entries (fieldsJson layout fields) =
      fields.zipIdx.map fun (f, position) => (entryName layout f position, f.value.toJson) := by
  cases layout with
  | list =>
    rw [fieldsJson, fieldList, entries, List.filterMap_map, ← List.filterMap_eq_map]
    rfl
  | flat => rfl

/-- The line of an event tells a field: it has an entry of its own among the fields, or
    its value is the one that is lifted under its name. -/
def Represents (s : Structured) (e : Event) (f : Field) : Prop :=
  (∃ fields position, (s.members e).lookup "fields" = some fields ∧
    (s.listedFields e)[position]? = some f ∧
    (entries fields)[position]? = some (entryName s.layout f position, f.value.toJson)) ∨
  f.key ∈ liftedKeys ∧ (s.members e).lookup f.key = some f.value.toJson

theorem represents_of_listed {f : Field} (h : f ∈ s.listedFields e) : s.Represents e f := by
  obtain ⟨position, hlt, hget⟩ := List.mem_iff_getElem.1 h
  have hsome : (s.listedFields e)[position]? = some f := by
    rw [List.getElem?_eq_getElem hlt, hget]
  have hfull : (s.listedFields e).isEmpty = false := by
    rw [List.isEmpty_eq_false_iff]
    exact List.ne_nil_of_mem h
  refine .inl ⟨fieldsJson s.layout (s.listedFields e), position, ?_, hsome, ?_⟩
  · rw [lookup_fields, unlessEmpty, hfull]
    rfl
  · rw [entries_fieldsJson, List.getElem?_map, List.getElem?_zipIdx, hsome]
    simp

theorem mem_listedFields {f : Field} :
    f ∈ s.listedFields e ↔
      f ∈ e.wholeFields ∧ f.isShown s.keepZeros = true ∧ isLifted f = false := by
  simp [listedFields, and_comm]

/-- A rendered field is told exactly if it is not lifted, or has the value that is. -/
theorem represents_iff_of_isShown {f : Field} (hf : f ∈ e.wholeFields)
    (hshown : f.isShown s.keepZeros = true) :
    s.Represents e f ↔
      (isLifted f = true → ∃ g, systemFieldNamed? e f.key = some g ∧
        g.value.toJson = f.value.toJson) := by
  constructor
  · rintro (⟨fields, position, _, hlisted, _⟩ | ⟨hkey, hlookup⟩) hlifted
    · -- a lifted field has no entry of its own
      obtain ⟨_, _, hnot⟩ := mem_listedFields.1 (List.mem_of_getElem? hlisted)
      rw [hlifted] at hnot
      exact absurd hnot (by decide)
    · rw [lookup_lifted s e hkey] at hlookup
      exact Option.map_eq_some_iff.1 hlookup
  · intro hvalue
    by_cases hlifted : isLifted f = true
    · have hkey : f.key ∈ liftedKeys := by
        simpa [isLifted] using (Bool.and_eq_true_iff.1 hlifted).2
      refine .inr ⟨hkey, ?_⟩
      rw [lookup_lifted s e hkey]
      exact Option.map_eq_some_iff.2 (hvalue hlifted)
    · exact represents_of_listed (mem_listedFields.2 ⟨hf, hshown, by simpa using hlifted⟩)

/-- A rendered field of an event as a whole is told by its line exactly if it is none of
    the system fields with the number or the class of an error, or has the value of the
    first one of its name. So a line loses no rendered field exactly if, of every such
    name, all of them have the value of the first. -/
theorem represents_iff (s : Structured) (e : Event) :
    (∀ f ∈ e.wholeFields, f.isShown s.keepZeros = true →
      (s.Represents e f ↔
        (isLifted f = true → ∃ g, systemFieldNamed? e f.key = some g ∧
          g.value.toJson = f.value.toJson))) ∧
    ((∀ f ∈ e.wholeFields, f.isShown s.keepZeros = true → s.Represents e f) ↔
      ∀ f ∈ e.wholeFields, f.isShown s.keepZeros = true → isLifted f = true →
        ∃ g, systemFieldNamed? e f.key = some g ∧ g.value.toJson = f.value.toJson) := by
  refine ⟨fun f hf hshown => represents_iff_of_isShown hf hshown, ?_⟩
  constructor
  · intro hall f hf hshown
    exact (represents_iff_of_isShown hf hshown).1 (hall f hf hshown)
  · intro hall f hf hshown
    exact (represents_iff_of_isShown hf hshown).2 (hall f hf hshown)

/-- A field with the mark of the system among the other fields of an event is told in
    neither layout, and neither is the second class of an error that was classified
    twice. -/
theorem represents_lost :
    let stray : Field := ⟨"error_id", .nat64 7, 0, true, false⟩
    let marked : Event := ⟨.error, default, .ofSteps [.addField stray], none⟩
    let second : Field := ⟨"error_class_id", .nat32 9, 0, true, false⟩
    let classified : Event :=
      ⟨.error, default, .empty,
        some (((RecordedError.make 1 "lost" []).classified 7 "db").classified 9 "net").record⟩
    (stray ∈ marked.wholeFields ∧ stray.isShown false = true ∧
      ∀ layout, ¬ (⟨layout, false⟩ : Structured).Represents marked stray) ∧
    (second ∈ classified.wholeFields ∧ second.isShown false = true ∧
      ∀ layout, ¬ (⟨layout, false⟩ : Structured).Represents classified second) := by
  intro stray marked second classified
  have hstray : stray ∈ marked.wholeFields := List.mem_of_getElem? (i := 0) rfl
  have hsecond : second ∈ classified.wholeFields := List.mem_of_getElem? (i := 3) rfl
  have hshownStray : stray.isShown false = true := by decide
  have hshownSecond : second.isShown false = true := by decide
  refine ⟨⟨hstray, hshownStray, ?_⟩, hsecond, hshownSecond, ?_⟩
  · intro layout h
    -- only the system fields are looked through for a field that is lifted
    have hnone : systemFieldNamed? marked stray.key = none := rfl
    obtain ⟨g, hg, -⟩ := (represents_iff_of_isShown hstray hshownStray).1 h (by decide)
    rw [hnone] at hg
    cases hg
  · intro layout h
    obtain ⟨g, hg, hvalue⟩ := (represents_iff_of_isShown hsecond hshownSecond).1 h (by decide)
    obtain rfl := Option.some.inj hg
    exact absurd (Json.integer.inj hvalue) (by decide)

end Structured

end Logbook
