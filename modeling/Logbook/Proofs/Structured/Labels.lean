import Logbook.Proofs.Structured.Lifted
import Logbook.Proofs.Structured.Line

/-!
# The names of the fields in one object

In the layout of one object the name of a field is its frame and its label, with a dot
between them. The digits of a frame hold no dot, so a name tells the frame and the
label, whatever the label holds. A label is the key of the field, or an underscore and
a position for a field without a key. The underscore is reserved for the fields of the
system alone, so a key of the program may be the label of a field without one. Apart
from that the names are different.
-/

namespace Logbook

namespace Field

variable {f g : Field}

theorem label_of_nameless (h : f.isNameless = true) (position : Nat) :
    f.label position = "_" ++ String.ofList (Text.digits position) := by
  rw [label, if_pos h]

theorem label_of_named (h : f.isNameless = false) (position : Nat) :
    f.label position = f.key := by
  rw [label, if_neg (by simp [h])]

/-- Fields without a key have different labels at different positions. -/
theorem eq_of_label_eq {p q : Nat} (hf : f.isNameless = true) (hg : g.isNameless = true)
    (h : f.label p = g.label q) : p = q := by
  rw [label_of_nameless hf, label_of_nameless hg] at h
  have hdigits : Text.digits p = Text.digits q := by
    simpa using congrArg String.toList h
  exact Text.digits_injective hdigits

/-- A field whose key is a label has a key. -/
theorem isNameless_of_key_eq_label {p : Nat} (hf : f.isNameless = true)
    (h : g.key = f.label p) : g.isNameless = false := by
  rw [label_of_nameless hf] at h
  rw [isNameless, h]
  simp [String.isEmpty_eq_false_iff]

end Field

namespace Structured

/-- The name of a field in an object tells its frame and its label. -/
theorem entryName_flat_eq_iff {f g : Field} {p q : Nat} :
    entryName .flat f p = entryName .flat g q ↔ f.frame = g.frame ∧ f.label p = g.label q := by
  have hdot : ∀ n : Nat, '.' ∉ Text.digits n := Text.not_mem_digits rfl
  have hname : ∀ (f : Field) (p : Nat), (entryName .flat f p).toList =
      Text.digits f.frame ++ '.' :: (f.label p).toList := by
    intro f p
    simp [entryName]
  constructor
  · intro h
    have hcut := congrArg (fun name => Text.splitFirst '.' name.toList) h
    simp only [hname, Text.splitFirst_append (hdot _), Option.some.injEq, Prod.mk.injEq] at hcut
    exact ⟨Text.digits_injective hcut.1, String.toList_inj.1 hcut.2⟩
  · rintro ⟨hframe, hlabel⟩
    simp only [entryName, hframe, hlabel]

/-- Of the fields with a key, no two have the same frame and the same key. -/
def DistinctlyNamed (fields : List Field) : Prop :=
  (fields.filter fun f => !f.isNameless).Pairwise fun f g => (f.frame, f.key) ≠ (g.frame, g.key)

/-- The label of a field without a key is not the key of a field at its frame. -/
def LabelsUnused (fields : List Field) : Prop :=
  ∀ (position : Nat) (f : Field), fields[position]? = some f → f.isNameless = true →
    ∀ g ∈ fields, g.frame = f.frame → g.key ≠ f.label position

/-- The fields of a line as the members of an object. -/
def flatEntries (fields : List Field) : List (String × Json.Content) :=
  fields.zipIdx.map fun (f, position) => (entryName .flat f position, f.value.toJson.content)

theorem flatEntries_getElem? (fields : List Field) (position : Nat) :
    (flatEntries fields)[position]? = fields[position]?.map fun f =>
      (entryName .flat f position, f.value.toJson.content) := by
  rw [flatEntries, List.getElem?_map, List.getElem?_zipIdx, Option.map_map, Nat.zero_add]
  rfl

variable {fields : List Field}

theorem nodup_flatEntries_iff :
    ((flatEntries fields).map Prod.fst).Nodup ↔
      ∀ (p q : Nat) (f g : Field), fields[p]? = some f → fields[q]? = some g →
        entryName .flat f p = entryName .flat g q → p = q := by
  have hname : ∀ (p : Nat) (f : Field), fields[p]? = some f →
      ((flatEntries fields).map Prod.fst)[p]? = some (entryName .flat f p) := by
    intro p f hf
    rw [List.getElem?_map, flatEntries_getElem?, hf]
    rfl
  constructor
  · intro h p q f g hf hg heq
    have hlt : p < ((flatEntries fields).map Prod.fst).length :=
      (List.getElem?_eq_some_iff.1 (hname p f hf)).1
    refine (List.getElem?_inj hlt h).1 ?_
    rw [hname p f hf, hname q g hg, heq]
  · intro h
    rw [List.nodup_iff_getElem?_ne_getElem?]
    intro p q hpq hq heq
    have hlength : ((flatEntries fields).map Prod.fst).length = fields.length := by
      simp [flatEntries]
    have hf : fields[p]? = some fields[p] := List.getElem?_eq_getElem (by omega)
    have hg : fields[q]? = some fields[q] := List.getElem?_eq_getElem (by omega)
    rw [hname p _ hf, hname q _ hg] at heq
    exact absurd (h p q _ _ hf hg (Option.some.inj heq)) (Nat.ne_of_lt hpq)

theorem distinctlyNamed_iff :
    DistinctlyNamed fields ↔
      ∀ (p q : Nat) (f g : Field), fields[p]? = some f → fields[q]? = some g →
        f.isNameless = false → g.isNameless = false →
        f.frame = g.frame → f.key = g.key → p = q := by
  rw [DistinctlyNamed, List.pairwise_filter, List.pairwise_iff_getElem]
  simp only [Bool.not_eq_true', ne_eq, Prod.mk.injEq, not_and]
  constructor
  · intro h p q f g hp hq hf hg hframe hkey
    obtain ⟨hplt, rfl⟩ := List.getElem?_eq_some_iff.1 hp
    obtain ⟨hqlt, rfl⟩ := List.getElem?_eq_some_iff.1 hq
    rcases Nat.lt_trichotomy p q with hlt | heq | hgt
    · exact absurd hkey (h p q hplt hqlt hlt hf hg hframe)
    · exact heq
    · exact absurd hkey.symm (h q p hqlt hplt hgt hg hf hframe.symm)
  · intro h p q hplt hqlt hlt hf hg hframe hkey
    exact absurd (h p q _ _ (List.getElem?_eq_getElem hplt) (List.getElem?_eq_getElem hqlt)
      hf hg hframe hkey) (Nat.ne_of_lt hlt)

/-- The names of the fields are different exactly if the keys tell the fields with a
    key apart, and none of them is the label of a field without one. -/
theorem nodup_flatEntries :
    ((flatEntries fields).map Prod.fst).Nodup ↔ DistinctlyNamed fields ∧ LabelsUnused fields := by
  rw [nodup_flatEntries_iff, distinctlyNamed_iff]
  constructor
  · intro h
    refine ⟨fun p q f g hp hq hf hg hframe hkey => ?_, fun p f hp hf g hmem hframe hkey => ?_⟩
    · refine h p q f g hp hq (entryName_flat_eq_iff.2 ⟨hframe, ?_⟩)
      rw [Field.label_of_named hf, Field.label_of_named hg, hkey]
    · obtain ⟨q, hq⟩ := List.mem_iff_getElem?.1 hmem
      have hg : g.isNameless = false := Field.isNameless_of_key_eq_label hf hkey
      have hpos : q = p := by
        refine h q p g f hq hp (entryName_flat_eq_iff.2 ⟨hframe, ?_⟩)
        rw [Field.label_of_named hg, hkey]
      -- one position holds one field, and it cannot be both with and without a key
      rw [hpos, hp] at hq
      rw [← Option.some.inj hq, hf] at hg
      exact Bool.noConfusion hg
  · rintro ⟨hdistinct, hunused⟩ p q f g hp hq hname
    obtain ⟨hframe, hlabel⟩ := entryName_flat_eq_iff.1 hname
    cases hf : f.isNameless with
    | false =>
      rw [Field.label_of_named hf] at hlabel
      cases hg : g.isNameless with
      | false =>
        rw [Field.label_of_named hg] at hlabel
        exact hdistinct p q f g hp hq hf hg hframe hlabel
      | true => exact absurd hlabel (hunused q g hq hg f (List.mem_of_getElem? hp) hframe)
    | true =>
      cases hg : g.isNameless with
      | false =>
        rw [Field.label_of_named hg] at hlabel
        exact absurd hlabel.symm (hunused p f hp hf g (List.mem_of_getElem? hq) hframe.symm)
      | true => exact Field.eq_of_label_eq hf hg hlabel

/-- Where the names are different, an entry is found under its name. -/
theorem lookup_of_nodup {entries : List (String × Json.Content)} {name : String}
    {value : Json.Content} (h : (entries.map Prod.fst).Nodup) (hmem : (name, value) ∈ entries) :
    entries.lookup name = some value := by
  obtain ⟨before, after, rfl⟩ := List.append_of_mem hmem
  refine List.lookup_eq_some_iff.2 ⟨before, after, rfl, fun entry hentry => ?_⟩
  rw [List.map_append, List.map_cons, List.nodup_append] at h
  have hne : entry.1 ≠ name :=
    h.2.2 entry.1 (List.mem_map_of_mem hentry) name List.mem_cons_self
  simpa using hne.symm

theorem content_flatFields (fields : List Field) :
    (flatFields fields).content = .object (flatEntries fields) := by
  rw [flatFields, Json.content, Json.membersContent_eq_map, List.map_map]
  rfl

theorem lookup_flatEntries {p : Nat} {f : Field}
    (h : ((flatEntries fields).map Prod.fst).Nodup) (hf : fields[p]? = some f) :
    (flatEntries fields).lookup (entryName .flat f p) = some f.value.toJson.content := by
  refine lookup_of_nodup h (List.mem_of_getElem? (i := p) ?_)
  rw [flatEntries_getElem?, hf]
  rfl

/-- In the layout of one object, the line of an event has one entry for each field that
    is listed, in their order, whose name is the frame and the label of the field. The
    names are different exactly if the keys tell the fields with a key apart and none of
    the keys is the label of a field without one. Then each field is found under its name
    with its value: exactly, if that is a truth value, a whole number or a text. -/
theorem encode_flat_names (keepZeros : Bool) (e : Event) :
    let s : Structured := ⟨.flat, keepZeros⟩
    let listed := s.listedFields e
    ∃ (octets : List UInt8) (text : List Char) (members entries : List (String × Json.Content)),
      Text.Utf8.encode (s.encode e) = octets ++ [0x0a] ∧
      Text.Utf8.decode? octets = some text ∧
      (∀ content, Json.Denotes text content ↔ content = .object members) ∧
      members.lookup "fields" = (if listed = [] then none else some (.object entries)) ∧
      entries.length = listed.length ∧
      (∀ (position : Nat) (f : Field), listed[position]? = some f →
        entries[position]? = some (entryName .flat f position, f.value.toJson.content)) ∧
      ((entries.map Prod.fst).Nodup ↔ DistinctlyNamed listed ∧ LabelsUnused listed) ∧
      (DistinctlyNamed listed → LabelsUnused listed →
        ∀ (position : Nat) (f : Field), listed[position]? = some f →
          entries.lookup (entryName .flat f position) = some f.value.toJson.content) ∧
      (∀ f ∈ listed, ∀ exact, f.value.exactContent? = some exact →
        f.value.toJson.content = exact) := by
  intro s listed
  refine ⟨Text.Utf8.encode (s.document e).write, (s.document e).chars,
    Json.membersContent (s.members e), flatEntries listed, ?_, ?_, ?_, ?_, ?_, ?_, ?_, ?_, ?_⟩
  · rw [encode, Text.Utf8.encode_append]
    rfl
  · rw [Text.Utf8.decode?_encode, Json.write, String.toList_ofList]
  · exact Json.denotes_chars_iff (s.document e)
  · rw [lookup_fields_content, ← content_flatFields]
    rfl
  · simp [flatEntries]
  · intro position f hf
    rw [flatEntries_getElem?, hf]
    rfl
  · exact nodup_flatEntries
  · intro hdistinct hunused position f hf
    exact lookup_flatEntries (nodup_flatEntries.2 ⟨hdistinct, hunused⟩) hf
  · exact fun f _ exact hexact => Payload.content_toJson hexact

/-- Keys with dots, and keys that look like labels, do no harm as long as they are not
    the label of a field that is there. -/
theorem encode_flat_names_apart :
    let fields : List Field :=
      [.make "_0" (.nat64 1), .make "" (.nat64 2), .make "0._1" (.bool true)]
    let e : Event := ⟨.error, default, .ofSteps (fields.map .addField), none⟩
    let s : Structured := ⟨.flat, false⟩
    s.listedFields e = fields ∧ DistinctlyNamed fields ∧ LabelsUnused fields ∧
    ∃ (octets : List UInt8) (text : List Char) (members entries : List (String × Json.Content)),
      Text.Utf8.encode (s.encode e) = octets ++ [0x0a] ∧
      Text.Utf8.decode? octets = some text ∧
      Json.Denotes text (.object members) ∧
      members.lookup "fields" = some (.object entries) ∧
      (entries.map Prod.fst).Nodup ∧
      entries.lookup "0._1" = some (.number 2) := by
  intro fields e s
  have hlisted : s.listedFields e = fields := rfl
  have hdistinct : DistinctlyNamed fields := by
    simp [DistinctlyNamed, fields, Field.make, Field.splitMark, Field.isNameless]
  have hunused : LabelsUnused fields := by
    intro position f hf hnameless g hg _ hkey
    rcases position with _ | _ | _ | position
    · obtain rfl := Option.some.inj hf
      exact absurd hnameless (by decide)
    · obtain rfl := Option.some.inj hf
      have hlabel : Field.label (.make "" (.nat64 2)) 1 = "_1" := by decide +kernel
      have hkeys : g.key = "_0" ∨ g.key = "" ∨ g.key = "0._1" := by
        simp only [fields, List.mem_cons, List.not_mem_nil, or_false] at hg
        rcases hg with rfl | rfl | rfl <;> simp [Field.make, Field.splitMark]
      rw [hkey, hlabel] at hkeys
      exact absurd hkeys (by decide)
    · obtain rfl := Option.some.inj hf
      exact absurd hnameless (by decide)
    · cases hf
  refine ⟨hlisted, hdistinct, hunused, ?_⟩
  obtain ⟨octets, text, members, entries, hline, htext, hdenotes, hfields, -, -, hnodup, hlookup,
    hexact⟩ := encode_flat_names false e
  have hsecond : fields[1]? = some (.make "" (.nat64 2)) := rfl
  refine ⟨octets, text, members, entries, hline, htext, (hdenotes _).2 rfl, hfields,
    hnodup.2 ⟨hdistinct, hunused⟩, ?_⟩
  have hname : entryName .flat (.make "" (.nat64 2)) 1 = "0._1" := by decide +kernel
  have hfound := hlookup hdistinct hunused 1 _ hsecond
  rwa [hname, hexact _ (List.mem_of_getElem? hsecond) (.number 2) rfl] at hfound

/-- A field with the label of another field as its key has the same name as that field,
    although no two keys are the same. -/
theorem flat_names_collide :
    let fields : List Field := [.make "_1" (.nat64 1), .make "" (.nat64 2)]
    let e : Event := ⟨.error, default, .ofSteps (fields.map .addField), none⟩
    let s : Structured := ⟨.flat, false⟩
    s.listedFields e = fields ∧ DistinctlyNamed fields ∧
    (Json.membersContent (s.members e)).lookup "fields" =
      some (.object [("0._1", .number 1), ("0._1", .number 2)]) ∧
    ¬ (DistinctlyNamed (s.listedFields e) →
      ((flatEntries (s.listedFields e)).map Prod.fst).Nodup) := by
  intro fields e s
  have hlisted : s.listedFields e = fields := rfl
  have hdistinct : DistinctlyNamed fields := by
    simp [DistinctlyNamed, fields, Field.make, Field.splitMark, Field.isNameless]
  have hentries : flatEntries fields = [("0._1", .number 1), ("0._1", .number 2)] := by
    rfl
  refine ⟨hlisted, hdistinct, ?_, ?_⟩
  · rw [lookup_fields_content, hlisted, ← hentries, ← content_flatFields]
    rfl
  · rw [hlisted, hentries]
    intro h
    exact absurd (h hdistinct) (by simp)

end Structured

end Logbook
