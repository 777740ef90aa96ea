import Logbook.Proofs.Field.Written
import Logbook.Proofs.Json.Written
import Logbook.Proofs.Structured.Members
import Logbook.Proofs.Text.Utf8
import Logbook.Record.Step

/-!
# Structured log lines as JSON

A structured log line is a JSON text with a line break behind it and no other
control character. What the text says is the content of the members of the line,
which can be read back from it: the level and its value, the message, and in the
layout of a list the name and the value of every field that is listed.
-/

namespace Logbook

theorem Level.read_lowerName (level : Level) : read level.lowerName = .ok level := by
  cases level <;> rfl

/-- What the JSON text of a truth value, a whole number or a text has to say. -/
def Payload.exactContent? : Payload → Option Json.Content
  | bool value => some (.bool value)
  | int8 value => some (.number value.toInt)
  | int16 value => some (.number value.toInt)
  | int32 value => some (.number value.toInt)
  | int64 value => some (.number value.toInt)
  | nat8 value => some (.number value.toNat)
  | nat16 value => some (.number value.toNat)
  | nat32 value => some (.number value.toNat)
  | nat64 value => some (.number value.toNat)
  | text value => some (.text value)
  | _ => none

theorem Payload.content_toJson {payload : Payload} {content : Json.Content}
    (h : payload.exactContent? = some content) : payload.toJson.content = content := by
  cases payload <;> simp_all [exactContent?, toJson, Json.content]

theorem Json.lookup_membersContent (members : List (String × Json)) (key : String) :
    (membersContent members).lookup key = (members.lookup key).map content := by
  induction members with
  | nil => rfl
  | cons m rest ih =>
    obtain ⟨name, value⟩ := m
    by_cases h : key = name
    · simp [membersContent, h]
    · have hne : (key == name) = false := by simpa using h
      simp [membersContent, List.lookup_cons, hne, ih]

namespace Structured

variable (s : Structured) (e : Event)

theorem lookup_level : (s.members e).lookup "level" = some (.text e.level.lowerName) := rfl

theorem lookup_level_value :
    (s.members e).lookup "level_value" = some (.integer e.level.value) := rfl

theorem lookup_message : (s.members e).lookup "message" = some (.text e.message.body) := rfl

/-- The entry of a field in a list of fields. -/
def listEntry (f : Field) (position : Nat) : Json.Content :=
  .object [("key", .text (f.writtenKey position)), ("value", f.value.toJson.content)]

theorem content_fieldList (fields : List Field) :
    (fieldList fields).content =
      .array (fields.zipIdx.map fun (f, position) => listEntry f position) := by
  rw [fieldList, Json.content, Json.elementsContent_eq_map, List.map_map]
  simp only [Field.label_eq]
  rfl

/-- The fields are left out where none is listed. -/
theorem lookup_fields_content :
    (Json.membersContent (s.members e)).lookup "fields" =
      if s.listedFields e = [] then none
      else some (fieldsJson s.layout (s.listedFields e)).content := by
  rw [Json.lookup_membersContent, lookup_fields, unlessEmpty]
  by_cases hempty : s.listedFields e = []
  · simp [hempty]
  · have hfull : (s.listedFields e).isEmpty = false := List.isEmpty_eq_false_iff.2 hempty
    rw [hfull, if_neg hempty]
    rfl

theorem lookup_fields_list (hlayout : s.layout = .list) :
    (Json.membersContent (s.members e)).lookup "fields" =
      if s.listedFields e = [] then none
      else some (.array ((s.listedFields e).zipIdx.map fun (f, position) =>
        listEntry f position)) := by
  rw [lookup_fields_content, hlayout, fieldsJson, content_fieldList]

/-- The line of an event ends with its only line break, and holds no other control
    character. What stands before the line break is a JSON text of one value, an object
    whose members have different names and come in a fixed order. Its level is read back
    as the level of the event, its number is that of the level, and its message is the
    body of the event. In the layout of a list, the fields are those of the event as a
    whole that are rendered and not lifted, in their order, each with its name and, if
    it is a truth value, a whole number or a text, exactly with its value. -/
theorem encode_denotes :
    ∃ (octets : List UInt8) (text : List Char) (members : List (String × Json.Content)),
      Text.Utf8.encode (s.encode e) = octets ++ [0x0a] ∧
      (∀ b ∈ octets, 0x20 ≤ b) ∧
      Text.Utf8.decode? octets = some text ∧
      (∀ content, Json.Denotes text content ↔ content = .object members) ∧
      (members.map Prod.fst).Nodup ∧
      (∃ later, members.map Prod.fst = ["level", "level_value", "time", "message"] ++ later ∧
        later.Sublist
          ["error_id", "error_class_id", "error_class_name", "error", "fields", "stacktrace"]) ∧
      (∃ name, members.lookup "level" = some (.text name) ∧ Level.read name = .ok e.level) ∧
      members.lookup "level_value" = some (.number e.level.value) ∧
      members.lookup "message" = some (.text e.message.body) ∧
      (s.layout = .list →
        let listed := (e.message.systemFields ++ (e.error.map Record.systemFields).getD [] ++
          e.message.fields).filter fun f => f.isShown s.keepZeros &&
            !(f.system && ["error_id", "error_class_id", "error_class_name"].contains f.key)
        ∃ entries : List Json.Content,
          members.lookup "fields" = (if listed = [] then none else some (.array entries)) ∧
          entries.length = listed.length ∧
          ∀ (position : Nat) (f : Field), listed[position]? = some f →
            ∃ value : Json.Content, entries[position]? =
                some (Json.Content.object
                  [("key", .text (if f.key = "" then "_" ++ toString position else f.key)),
                    ("value", value)]) ∧
              ∀ exact, f.value.exactContent? = some exact → value = exact) := by
  have hnames : (Json.membersContent (s.members e)).map Prod.fst = (s.members e).map Prod.fst := by
    rw [Json.membersContent_eq_map, List.map_map]
    rfl
  refine ⟨Text.Utf8.encode (s.document e).write, (s.document e).chars,
    Json.membersContent (s.members e), ?_, ?_, ?_, ?_, ?_, ?_, ?_, ?_, ?_, ?_⟩
  · rw [encode, Text.Utf8.encode_append]
    rfl
  · intro b hb
    refine Text.Utf8.le_of_mem_encode (n := 0x20) (by decide) ?_ hb
    rw [Json.write, String.toList_ofList]
    exact fun c hc => Json.le_of_mem_chars (s.document e) hc
  · rw [Text.Utf8.decode?_encode, Json.write, String.toList_ofList]
  · exact Json.denotes_chars_iff (s.document e)
  · rw [hnames]
    exact nodup_names_members s e
  · rw [hnames]
    exact map_fst_members s e
  · refine ⟨e.level.lowerName, ?_, e.level.read_lowerName⟩
    rw [Json.lookup_membersContent, lookup_level]
    rfl
  · rw [Json.lookup_membersContent, lookup_level_value]
    rfl
  · rw [Json.lookup_membersContent, lookup_message]
    rfl
  · intro hlayout listed
    -- the encoder asks for the two conditions one after the other
    have hlisted : s.listedFields e = listed := by
      rw [listedFields, List.filter_filter]
      exact List.filter_congr fun f _ => Bool.and_comm _ _
    refine ⟨listed.zipIdx.map fun (f, position) => listEntry f position, ?_, ?_, ?_⟩
    · rw [lookup_fields_list s e hlayout, hlisted]
    · rw [List.length_map, List.length_zipIdx]
    · intro position f hf
      refine ⟨f.value.toJson.content, ?_, fun exact hexact => Payload.content_toJson hexact⟩
      rw [List.getElem?_map, List.getElem?_zipIdx, hf]
      simp [listEntry, Field.writtenKey]

/-- The lifted number of an error and a field whose value could not be taken are not listed,
    and a field without a name is called by its place among those that are. -/
theorem encode_denotes_listed :
    let e : Event := ⟨.error, default,
      .ofSteps [.putBody "one", .addSystemField (.make "error_id" (.nat64 7)),
        .addField (.make "size" (.nat8 3)), .addField (.make "lost" .invalid),
        .addField (.make "" (.bool true)), .addField (.make "path" (.text "/var"))], none⟩
    let s : Structured := ⟨.list, false⟩
    s.encode e =
      "\x7b\"level\":\"error\",\"level_value\":3,\"time\":\"1970-01-01T00:00:00Z\"," ++
        "\"message\":\"one\",\"error_id\":7,\"fields\":[\x7b\"key\":\"size\",\"value\":3\x7d," ++
        "\x7b\"key\":\"_1\",\"value\":true\x7d,\x7b\"key\":\"path\",\"value\":\"/var\"\x7d]\x7d\n" ∧
    ∃ (octets : List UInt8) (text : List Char) (members : List (String × Json.Content)),
      Text.Utf8.encode (s.encode e) = octets ++ [0x0a] ∧
      Text.Utf8.decode? octets = some text ∧
      (∀ content, Json.Denotes text content ↔ content = .object members) ∧
      members.lookup "message" = some (.text "one") ∧
      members.lookup "fields" = some (.array
        [.object [("key", .text "size"), ("value", .number 3)],
          .object [("key", .text "_1"), ("value", .bool true)],
          .object [("key", .text "path"), ("value", .text "/var")]]) := by
  intro e s
  obtain ⟨octets, text, members, hline, -, htext, hdenotes, -, -, -, -, hmessage, hlist⟩ :=
    encode_denotes s e
  obtain ⟨entries, hfields, hlength, hentry⟩ := hlist rfl
  have hread : ∀ (position : Nat) (f : Field) (content : Json.Content),
      (s.listedFields e)[position]? = some f → f.value.exactContent? = some content →
      entries[position]? = some (.object
        [("key", .text (if f.key = "" then "_" ++ toString position else f.key)),
          ("value", content)]) := by
    intro position f content hf hcontent
    obtain ⟨value, hvalue, hexact⟩ := hentry position f hf
    rw [hvalue, hexact content hcontent]
  refine ⟨by decide +kernel, octets, text, members, hline, htext, hdenotes, hmessage, ?_⟩
  refine hfields.trans ((if_neg (List.cons_ne_nil _ _)).trans ?_)
  refine congrArg (fun listed => some (Json.Content.array listed)) (List.ext_getElem? fun i => ?_)
  match i with
  | 0 => exact hread 0 (.make "size" (.nat8 3)) _ rfl rfl
  | 1 => exact hread 1 (.make "" (.bool true)) _ rfl rfl
  | 2 => exact hread 2 (.make "path" (.text "/var")) _ rfl rfl
  | i + 3 => exact List.getElem?_eq_none (hlength.trans_le (Nat.le_add_left 3 i))

end Structured

end Logbook
