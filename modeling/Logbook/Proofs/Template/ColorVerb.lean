import Logbook.Proofs.Template.ColorTable
import Logbook.Proofs.Template.StyledVerb
import Logbook.Template.Encoder

/-!
# Color verbs and color tables

The specification of a color is the argument text of a verb, or what a table is set
to. Where it holds neither braces nor backslashes both take it apart alike
(`cutArguments_eq_splitAll`), and `ColorTable.set_agrees_verb` says that a verb is
compiled and rendered as the table is set.
-/

namespace Logbook

/-- Without backslashes the arguments are the texts between slashes. -/
theorem cutArguments_eq_splitAll {cs : List Char} (h : '\\' ∉ cs) :
    cutArguments cs = Text.splitAll '/' cs := by
  fun_induction cutArguments cs with
  | case1 => rfl
  | case2 cs ih => rw [ih fun hmem => h (List.mem_cons_of_mem '/' hmem), Text.splitAll, if_pos rfl]
  | case3 c cs _ => exact absurd List.mem_cons_self h
  | case4 c cs hslash _ ih =>
    rw [ih fun hmem => h (List.mem_cons_of_mem c hmem), Text.splitAll, if_neg hslash]
    cases Text.splitAll '/' cs <;> rfl

/-- The template of one color verb under a name, with a specification. -/
def Template.ofColor (name spec : String) : String :=
  String.ofList (opening ++ (name.toList ++ '/' :: spec.toList) ++ closing)

section Specification

variable {name spec : String}

theorem Verb.read_color (hname : (name, Verb.color) ∈ names) (hspec : '\\' ∉ spec.toList) :
    read [] (name.toList ++ '/' :: spec.toList) =
      match Color.compileText spec with
      | .ok sequence => .ok (color, .color sequence)
      | .error _ => .error .badArguments := by
  obtain ⟨hverb, hslash, -⟩ := of_mem_names hname
  have hsplit :
      splitName (name.toList ++ '/' :: spec.toList) = (name.toList, some spec.toList) := by
    rw [splitName, Text.splitFirst_append hslash]
  have hcompile : Color.compile (cutArguments spec.toList) = Color.compileText spec :=
    congrArg Color.compile (cutArguments_eq_splitAll hspec)
  simp only [read, hsplit, hverb, List.not_mem_nil, and_false, if_false, instruction?,
    colorInstruction?, hcompile]
  cases Color.compileText spec <;> rfl

/-- A color verb has one instruction: its sequence, or its source where the
    specification is an error. -/
theorem Program.instructions_ofColor (hname : (name, Verb.color) ∈ Verb.names)
    (hfree : BraceFree spec.toList) (hspec : '\\' ∉ spec.toList) :
    (compile (Template.ofColor name spec)).program.instructions =
      match Color.compileText spec with
      | .ok sequence => [.color sequence]
      | .error _ => [.literal (Template.ofColor name spec)] := by
  obtain ⟨-, -, hbrace⟩ := Verb.of_mem_names hname
  have htext : BraceFree (name.toList ++ '/' :: spec.toList) :=
    hbrace.append (List.forall_mem_cons.2 ⟨by decide, hfree⟩)
  have hcut : Template.Cut (Template.ofColor name spec).toList
      [.verb (name.toList ++ '/' :: spec.toList)] := by
    rw [Template.ofColor, String.toList_ofList]
    exact Template.cut_verb htext
  have hblank : ∃ c ∈ (Template.ofColor name spec).toList, Text.isBlank c = false :=
    ⟨'\x7b', by simp [Template.ofColor, Template.opening], by decide⟩
  rw [(compile_of_cut hblank hcut).1]
  simp only [Template.Segment.instructions, Template.Segment.withSeen, List.map_cons, List.map_nil,
    Template.Segment.instruction, Verb.read_color hname hspec]
  cases Color.compileText spec with
  | ok sequence => rfl
  | error e => exact if_neg (by simp [Template.Segment.source, Template.opening])

end Specification

theorem Template.encode_singleton {text : String} {instruction : Instruction}
    (h : (Program.compile text).program.instructions = [instruction]) (settings : RenderSettings)
    (e : Event) :
    (ofText text settings).encode e =
      (Program.compile text).program.renderInstruction settings e instruction := by
  rw [encode, ofText, Program.render, h, List.map_cons, List.map_nil, Text.concat_cons,
    Text.concat_nil, String.append_empty]

/-- The verb without a specification writes the color of the event's level. -/
theorem Template.encode_levelColor (settings : RenderSettings) (e : Event) :
    (ofText "\x7b\x7bc\x7d\x7d" settings).encode e = (settings.colors.get e.level).getD "" := by
  have hread : Verb.read [] ['c'] = .ok (.color, .levelColor) := rfl
  have hprogram := Program.compile_verb (by decide) hread (fun _ => Instruction.noConfusion)
  exact encode_singleton (congrArg Program.instructions hprogram) settings e

/-- A table is set by a specification exactly if a color verb of it compiles to a
    control sequence, and then the verb writes for all events what the table gives to
    events of the level. Otherwise the table stays as it is, and the verb writes its
    source. -/
theorem ColorTable.set_agrees_verb {name spec : String} (hname : (name, Verb.color) ∈ Verb.names)
    (hfree : BraceFree spec.toList) (hspec : '\\' ∉ spec.toList) (table : ColorTable)
    (level : Level) :
    let source := Template.ofColor name spec
    let instructions := (Program.compile source).program.instructions
    ((∃ updated, table.set level spec = .ok updated) ↔
      ∃ sequence, instructions = [.color sequence]) ∧
    (∀ updated, table.set level spec = .ok updated → ∃ sequence,
      updated.get level = some sequence ∧ instructions = [.color sequence] ∧
      ∀ settings keepZeros e levelled, levelled.level = level →
        (Template.ofText source settings).encode e = sequence ∧
        (Template.ofText "\x7b\x7bc\x7d\x7d" ⟨updated, keepZeros⟩).encode levelled = sequence) ∧
    ∀ error, table.set level spec = .error error →
      table.apply (.set level spec) = table ∧ instructions = [.literal source] ∧
      ∀ settings e, (Template.ofText source settings).encode e = source := by
  intro source instructions
  have hinstructions := Program.instructions_ofColor hname hfree hspec
  refine ⟨?_, ?_, ?_⟩
  · cases hcompile : Color.compileText spec with
    | ok sequence =>
      simp only [hcompile] at hinstructions
      exact iff_of_true ⟨_, set_eq_ok_iff.2 ⟨sequence, hcompile, rfl⟩⟩ ⟨sequence, hinstructions⟩
    | error e =>
      simp only [hcompile] at hinstructions
      refine iff_of_false ?_ ?_
      · rintro ⟨updated, hset⟩
        cases (set_eq_error_iff.2 hcompile).symm.trans hset
      · rintro ⟨sequence, heq⟩
        cases hinstructions.symm.trans heq
  · intro updated hset
    obtain ⟨sequence, hcompile, rfl⟩ := set_eq_ok_iff.1 hset
    simp only [hcompile] at hinstructions
    have hget : (table.put level (some sequence)).get level = some sequence := by
      rw [get_put, if_pos rfl]
    refine ⟨sequence, hget, hinstructions, fun settings keepZeros e levelled hlevel => ⟨?_, ?_⟩⟩
    · exact Template.encode_singleton hinstructions settings e
    · rw [Template.encode_levelColor, hlevel, hget, Option.getD_some]
  · intro error hset
    simp only [set_eq_error_iff.1 hset] at hinstructions
    exact ⟨apply_set_of_error hset, hinstructions,
      fun settings e => Template.encode_singleton hinstructions settings e⟩

/-- Capitals are no error, a stray slash is one. -/
theorem ColorTable.set_agrees_verb_bold :
    ("color", Verb.color) ∈ Verb.names ∧ BraceFree "Bold/fg:#FF8800".toList ∧
      '\\' ∉ "Bold/fg:#FF8800".toList ∧
      (∃ updated, ColorTable.none.set .info "Bold/fg:#FF8800" = .ok updated ∧
        updated.get .info = some "\x1b[1;38;5;208m") ∧
      (Program.compile "\x7b\x7bcolor/Bold/fg:#FF8800\x7d\x7d").program.instructions =
        [.color "\x1b[1;38;5;208m"] ∧
      (Program.compile "\x7b\x7bc/Bold//fg:Red\x7d\x7d").program.instructions =
        [.literal "\x7b\x7bc/Bold//fg:Red\x7d\x7d"] := by
  have hname : ("color", Verb.color) ∈ Verb.names := by decide
  have hfree : BraceFree "Bold/fg:#FF8800".toList := by decide
  have hspec : '\\' ∉ "Bold/fg:#FF8800".toList := by decide
  obtain ⟨-, hok, -⟩ := set_agrees_verb hname hfree hspec .none .info
  obtain ⟨-, -, herror⟩ := set_agrees_verb (by decide : ("c", Verb.color) ∈ Verb.names)
    (by decide : BraceFree "Bold//fg:Red".toList) (by decide) .none .info
  have hset : ColorTable.none.set .info "Bold/fg:#FF8800" =
      .ok (ColorTable.none.put .info (some "\x1b[1;38;5;208m")) :=
    set_eq_ok_iff.2 ⟨_, by decide, rfl⟩
  obtain ⟨sequence, hget, hinstructions, -⟩ := hok _ hset
  obtain rfl : "\x1b[1;38;5;208m" = sequence := by
    rw [get_put, if_pos rfl] at hget
    exact Option.some.inj hget
  exact ⟨hname, hfree, hspec, ⟨_, hset, hget⟩, hinstructions,
    (herror ⟨""⟩ (set_eq_error_iff.2 (by decide))).2.1⟩

end Logbook
