import Logbook.Template.Encoder

/-!
# Texts written as templates

A text is written as a template with a backslash before every two opening braces:
`escapeOpenings`. Nothing else of it needs an escape, since no two opening braces
are left that a verb could begin with (`not_opening_prefix_escapeOpenings`), so
that compiling takes the escapes away and keeps everything else
(`scan_escapeOpenings`). `Program.compile_escaped` says that the template of a
text writes the text for every event.
-/

namespace Logbook

namespace Template

/-- A text with a backslash before every two opening braces, which are taken from
    the front and do not overlap. -/
def escapeOpenings : List Char → List Char
  | '\x7b' :: '\x7b' :: rest => '\\' :: '\x7b' :: '\x7b' :: escapeOpenings rest
  | c :: rest => c :: escapeOpenings rest
  | [] => []

/-- A character that is not the first of two opening braces stays as it is. -/
theorem escapeOpenings_cons {c : Char} {rest : List Char}
    (h : ∀ back, c = '\x7b' → rest = '\x7b' :: back → False) :
    escapeOpenings (c :: rest) = c :: escapeOpenings rest := by
  rw [escapeOpenings]
  exact h

/-- Escaping only adds to a text. -/
theorem sublist_escapeOpenings (cs : List Char) : cs.Sublist (escapeOpenings cs) := by
  fun_induction escapeOpenings cs with
  | case1 rest ih => exact ((ih.cons_cons _).cons_cons _).cons _
  | case2 c rest _ ih => exact ih.cons_cons c
  | case3 => exact .slnil

/-- An escaped text begins with an opening brace only if the text does. -/
theorem head?_of_head?_escapeOpenings {cs : List Char}
    (h : (escapeOpenings cs).head? = some '\x7b') : cs.head? = some '\x7b' := by
  fun_cases escapeOpenings cs with
  | case1 rest => rfl
  | case2 c rest hnot =>
    rw [escapeOpenings_cons hnot] at h
    exact h
  | case3 => exact h

/-- An escaped text does not begin with two opening braces. -/
theorem not_opening_prefix_escapeOpenings (cs : List Char) : ¬ opening <+: escapeOpenings cs := by
  rintro ⟨back, heq⟩
  fun_cases escapeOpenings cs with
  | case1 rest =>
    rw [escapeOpenings] at heq
    exact absurd (List.cons.inj heq).1 (by decide)
  | case2 c rest hnot =>
    rw [escapeOpenings_cons hnot] at heq
    obtain ⟨hc, hrest⟩ := List.cons.inj heq
    -- the second brace would be one of the text, which is escaped together with the first
    have hhead : rest.head? = some '\x7b' := head?_of_head?_escapeOpenings (by rw [← hrest]; rfl)
    obtain ⟨back', hback⟩ := List.head?_eq_some_iff.1 hhead
    exact hnot back' hc.symm hback
  | case3 => cases heq

/-- Escaping leaves a text alone that does not hold two opening braces. -/
theorem escapeOpenings_eq_self {cs : List Char} (h : ¬ opening <:+: cs) :
    escapeOpenings cs = cs := by
  fun_induction escapeOpenings cs with
  | case1 rest _ => exact absurd (List.prefix_append opening rest).isInfix h
  | case2 c rest _ ih => rw [ih fun hrest => h (hrest.trans (List.suffix_cons c rest).isInfix)]
  | case3 => rfl

/-- A character that begins neither an opening nor an escaped one is kept. -/
theorem scan_char {c : Char} {cs : List Char} (s : State) (hopening : ¬ opening <+: c :: cs)
    (hescaped : ¬ '\\' :: opening <+: c :: cs) : scan s (c :: cs) = scan (s.keep [c]) cs := by
  rw [scan]
  · intro rest hc hrest
    exact hescaped ⟨rest, by rw [hc, hrest]; rfl⟩
  · intro rest hc hrest
    exact hopening ⟨rest, by rw [hc, hrest]; rfl⟩

theorem State.keep_keep (s : State) (front back : List Char) :
    (s.keep front).keep back = s.keep (front ++ back) := by
  rw [keep, keep, keep, List.append_assoc]

/-- Compiling an escaped text keeps the text. -/
theorem scan_escapeOpenings (s : State) (cs : List Char) :
    scan s (escapeOpenings cs) = (s.keep cs).flush := by
  fun_induction escapeOpenings cs generalizing s with
  | case1 rest ih =>
    rw [scan, ih, State.keep_keep]
    rfl
  | case2 c rest hnot ih =>
    have hopening : ¬ opening <+: c :: escapeOpenings rest := by
      rw [← escapeOpenings_cons hnot]
      exact not_opening_prefix_escapeOpenings _
    -- behind a backslash of the text no two opening braces are left either
    have hescaped : ¬ '\\' :: opening <+: c :: escapeOpenings rest := by
      intro hprefix
      exact not_opening_prefix_escapeOpenings rest (List.cons_prefix_cons.1 hprefix).2
    rw [scan_char s hopening hescaped, ih, State.keep_keep]
    rfl
  | case3 =>
    rw [scan, State.keep, List.append_nil]

end Template

/-- An escaped text compiles to the text as the only instruction. -/
theorem Program.compile_escapeOpenings {text : String}
    (hblank : ∃ c ∈ text.toList, Text.isBlank c = false) :
    compile (String.ofList (Template.escapeOpenings text.toList)) =
      { program := { instructions := [.literal text], frameLayout := .standard }
        diagnostics := [.templateCompiled 1 text.utf8ByteSize] } := by
  obtain ⟨c, hc, hnot⟩ := hblank
  have hsource : Text.isAllBlank (Template.escapeOpenings text.toList) = false := by
    rw [Text.isAllBlank, List.all_eq_false]
    exact ⟨c, (Template.sublist_escapeOpenings _).mem hc, by simp [hnot]⟩
  have hchars : text.toList.isEmpty = false := by
    rw [List.isEmpty_eq_false_iff]
    exact List.ne_nil_of_mem hc
  have htext : text.isEmpty = false := by
    rw [String.isEmpty_eq_false_iff]
    rintro rfl
    exact absurd hc List.not_mem_nil
  have hfinal : Template.scan .start (Template.escapeOpenings text.toList) =
      { Template.State.start with instructions := [.literal text] } := by
    rw [Template.scan_escapeOpenings, Template.State.flush]
    simp [Template.State.keep, Template.State.start, hchars]
  have hfuse : fuseLiterals [.literal text] = [.literal text] := by
    simp [fuseLiterals, htext]
  simp only [compile, String.toList_ofList, hsource, Bool.false_eq_true, if_false, hfinal, hfuse]
  simp [Template.State.start, expectedSize, Instruction.estimate]

/-- A text that is not blank, written as a template with its opening braces escaped,
    compiles to the text as its only instruction, and no verb is reported. So every
    event is written as the text, whatever the settings. A text that does not hold two
    opening braces is its own template. -/
theorem Program.compile_escaped (text : String)
    (hblank : ∃ c ∈ text.toList, Text.isBlank c = false) :
    let source := String.ofList (Template.escapeOpenings text.toList)
    (compile source).program.instructions = [.literal text] ∧
    (compile source).diagnostics = [.templateCompiled 1 text.utf8ByteSize] ∧
    (∀ (settings : RenderSettings) (e : Event),
      (Template.ofText source settings).encode e = text) ∧
    (¬ Template.opening <:+: text.toList →
      source = text ∧
      ∀ (settings : RenderSettings) (e : Event),
        (Template.ofText text settings).encode e = text) := by
  intro source
  have hcompile := compile_escapeOpenings hblank
  have hencode : ∀ (settings : RenderSettings) (e : Event),
      (Template.ofText source settings).encode e = text := by
    intro settings e
    rw [Template.encode, Template.ofText, hcompile, render]
    exact String.append_empty
  refine ⟨by rw [hcompile], by rw [hcompile], hencode, ?_⟩
  intro hopening
  have hsource : source = text := by
    change String.ofList (Template.escapeOpenings text.toList) = text
    rw [Template.escapeOpenings_eq_self hopening, String.ofList_toList]
  rw [hsource] at hencode
  exact ⟨hsource, hencode⟩

/-- A backslash of the text before its braces, three braces in a row and the name of a
    verb make no difference, and a backslash before one brace needs no escape. -/
theorem Program.compile_escaped_braces :
    ((∃ c ∈ "\\\x7b\x7b\x7bm\x7d\x7d".toList, Text.isBlank c = false) ∧
      (compile "\\\\\x7b\x7b\x7bm\x7d\x7d").program.instructions =
        [.literal "\\\x7b\x7b\x7bm\x7d\x7d"] ∧
      (compile "\\\\\x7b\x7b\x7bm\x7d\x7d").diagnostics = [.templateCompiled 1 7] ∧
      ∀ (settings : RenderSettings) (e : Event),
        (Template.ofText "\\\\\x7b\x7b\x7bm\x7d\x7d" settings).encode e =
          "\\\x7b\x7b\x7bm\x7d\x7d") ∧
    ((∃ c ∈ "\\\x7bm\x7d".toList, Text.isBlank c = false) ∧
      ¬ Template.opening <:+: "\\\x7bm\x7d".toList ∧
      ∀ (settings : RenderSettings) (e : Event),
        (Template.ofText "\\\x7bm\x7d" settings).encode e = "\\\x7bm\x7d") := by
  have hblank : ∃ c ∈ "\\\x7b\x7b\x7bm\x7d\x7d".toList, Text.isBlank c = false :=
    ⟨'m', by decide, by decide⟩
  have hplain : ∃ c ∈ "\\\x7bm\x7d".toList, Text.isBlank c = false :=
    ⟨'m', by decide, by decide⟩
  have hopening : ¬ Template.opening <:+: "\\\x7bm\x7d".toList := by decide
  obtain ⟨hprogram, hdiagnostics, hencode, -⟩ := compile_escaped _ hblank
  obtain ⟨-, -, -, hself⟩ := compile_escaped _ hplain
  exact ⟨⟨hblank, hprogram, hdiagnostics, hencode⟩, hplain, hopening, (hself hopening).2⟩

end Logbook
