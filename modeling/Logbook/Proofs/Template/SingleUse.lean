import Logbook.Proofs.Template.StyledVerb
import Logbook.Record.Step
import Logbook.Template.Encoder

/-!
# Verbs that occur once

Bodies, fields, stack traces and callers occur once in a program. Of all segments that
name such a verb, under any of its names, the first one makes the instruction, and every
later one stays literal text, as if its characters stood there (`ofSegments_repeated`).
So the layout of the fields beneath frames is that of the first fields verb, and the
layout of frames that of the first caller, wherever they stand. `Program.compile_singleUse`
says this of every template.
-/

namespace Logbook

/-- The verb that an instruction was made of. -/
def Instruction.verb? : Instruction → Option Verb
  | literal _ => none
  | color _ | levelColor => some .color
  | level _ => some .level
  | time _ => some .time
  | body _ => some .body
  | fields _ => some .fields
  | trace _ => some .trace
  | caller _ => some .caller

namespace Verb

variable {verb : Verb} {make : VerbStyle → Instruction}

theorem isSingleUse_of_styled (h : verb.styled? = some make) : verb.isSingleUse = true := by
  cases verb <;> first | rfl | cases h

theorem exists_styled (h : verb.isSingleUse = true) : ∃ make, verb.styled? = some make := by
  cases verb <;> first | exact ⟨_, rfl⟩ | cases h

theorem verb?_of_styled (h : verb.styled? = some make) (style : VerbStyle) :
    (make style).verb? = some verb := by
  cases verb <;> cases h <;> rfl

/-- An instruction is one of the verb that it was made of. -/
theorem verb?_of_instruction? {arguments : Option (List Char)} {made : Instruction}
    (h : verb.instruction? arguments = some made) : made.verb? = some verb := by
  cases verb with
  | caller | time | body | fields | trace =>
    cases h
    rfl
  | level =>
    cases arguments with
    | none =>
      cases h
      rfl
    | some tag =>
      obtain ⟨style, -, rfl⟩ := Option.map_eq_some_iff.1 h
      rfl
  | color =>
    cases arguments with
    | none =>
      cases h
      rfl
    | some modifiers =>
      obtain ⟨sequence, -, rfl⟩ := Option.map_eq_some_iff.1 h
      rfl

end Verb

namespace Template

namespace Segment

/-- The verb that a segment names, whether or not it makes sense. -/
def verb? : Segment → Option Verb
  | verb text => Verb.ofName? (Verb.splitName text).1
  | _ => none

/-- The directives of the verb of a segment. -/
def directives : Segment → List Directive
  | verb text =>
    Directive.ofArguments (decide ((verb text).verb? = some .caller)) (Verb.splitName text).2
  | _ => []

/-- The style that the directives of a segment make. -/
def style (segment : Segment) : VerbStyle := .ofDirectives segment.directives

/-- The first segment that names a verb. -/
def first? (v : Verb) (segments : List Segment) : Option Segment :=
  segments.find? fun segment => segment.verb? = some v

/-- The verbs that occurred before what follows some segments. -/
def seenAfter (seen : List Verb) (segments : List Segment) : List Verb :=
  segments.foldl (fun seen segment => segment.seenBehind seen) seen

variable {v : Verb} {make : VerbStyle → Instruction}

theorem read_of_styled (seen : List Verb) {text : List Char} (hv : (verb text).verb? = some v)
    (hstyled : v.styled? = some make) :
    Verb.read seen text =
      if v ∈ seen then .error .repeatedVerb else .ok (v, make (verb text).style) := by
  have hname : Verb.ofName? (Verb.splitName text).1 = some v := hv
  have hinstruction : v.instruction? (Verb.splitName text).2 = some (make (verb text).style) := by
    rw [style, directives, hv]
    cases v <;> cases hstyled <;> rfl
  simp only [Verb.read, hname, Verb.isSingleUse_of_styled hstyled, true_and, hinstruction]

/-- What is read as a verb is the verb that the text names. -/
theorem verb?_of_read {seen : List Verb} {text : List Char} {found : Verb} {made : Instruction}
    (h : Verb.read seen text = .ok (found, made)) :
    (verb text).verb? = some found ∧ made.verb? = some found := by
  unfold Verb.read at h
  simp only at h
  split at h
  · cases h
  · next named hname =>
    split at h
    · cases h
    · split at h
      · next hinstruction =>
        cases h
        exact ⟨hname, Verb.verb?_of_instruction? hinstruction⟩
      · cases h

/-- A verb that occurs once makes an instruction, unless it occurred before. -/
theorem instruction_of_styled (seen : List Verb) {segment : Segment} (hv : segment.verb? = some v)
    (hstyled : v.styled? = some make) :
    segment.instruction seen =
      if v ∈ seen then .literal (String.ofList segment.source) else make segment.style := by
  cases segment with
  | verb text =>
    have hread := read_of_styled seen hv hstyled
    by_cases hmem : v ∈ seen
    · rw [if_pos hmem] at hread ⊢
      simp only [instruction, hread]
    · rw [if_neg hmem] at hread ⊢
      simp only [instruction, hread]
  | _ => cases hv

/-- An instruction of a verb that occurs once is made of a segment that names the verb,
    where it did not occur before. -/
theorem verb?_instruction (seen : List Verb) (segment : Segment)
    (hstyled : v.styled? = some make) :
    (segment.instruction seen).verb? = some v ↔ segment.verb? = some v ∧ v ∉ seen := by
  constructor
  · intro h
    cases segment with
    | verb text =>
      have hv : (verb text).verb? = some v := by
        cases hread : Verb.read seen text with
        | error fault =>
          simp only [instruction, hread] at h
          cases h
        | ok result =>
          obtain ⟨hnamed, hmade⟩ := verb?_of_read hread
          simp only [instruction, hread] at h
          rw [hnamed, ← hmade, h]
      refine ⟨hv, fun hmem => ?_⟩
      rw [instruction_of_styled seen hv hstyled, if_pos hmem] at h
      cases h
    | _ => cases h
  · rintro ⟨hv, hnot⟩
    rw [instruction_of_styled seen hv hstyled, if_neg hnot]
    exact Verb.verb?_of_styled hstyled _

theorem mem_seenBehind (seen : List Verb) (segment : Segment)
    (hstyled : v.styled? = some make) :
    v ∈ segment.seenBehind seen ↔ v ∈ seen ∨ segment.verb? = some v := by
  cases segment with
  | verb text =>
    cases hread : Verb.read seen text with
    | error fault =>
      -- a verb that occurs once is at fault only where it occurred before
      have hoccurred : (verb text).verb? = some v → v ∈ seen := by
        intro hv
        refine Decidable.byContradiction fun hnot => ?_
        rw [read_of_styled seen hv hstyled, if_neg hnot] at hread
        cases hread
      simp only [seenBehind, hread]
      exact ⟨.inl, fun h => h.elim id hoccurred⟩
    | ok result =>
      simp only [seenBehind, hread, List.mem_cons, (verb?_of_read hread).1, Option.some.injEq]
      rw [or_comm, eq_comm]
  | _ => simp [seenBehind, verb?]

theorem seenBehind_of_mem {seen : List Verb} {segment : Segment} (hmem : v ∈ seen)
    (hv : segment.verb? = some v) (hstyled : v.styled? = some make) :
    segment.seenBehind seen = seen := by
  cases segment with
  | verb text =>
    have hread := read_of_styled seen hv hstyled
    rw [if_pos hmem] at hread
    simp only [seenBehind, hread]
  | _ => rfl

/-- Of the verbs that occur once, those occurred that some segment named. -/
theorem mem_seenAfter (hstyled : v.styled? = some make) (seen : List Verb)
    (segments : List Segment) :
    v ∈ seenAfter seen segments ↔ v ∈ seen ∨ ∃ segment ∈ segments, segment.verb? = some v := by
  induction segments generalizing seen with
  | nil => simp [seenAfter]
  | cons segment rest ih =>
    have hcons : seenAfter seen (segment :: rest) = seenAfter (segment.seenBehind seen) rest := rfl
    rw [hcons, ih, mem_seenBehind seen segment hstyled, or_assoc]
    simp only [List.mem_cons, exists_eq_or_imp]

theorem instructions_append (seen : List Verb) (front back : List Segment) :
    instructions seen (front ++ back) =
      instructions seen front ++ instructions (seenAfter seen front) back := by
  induction front generalizing seen with
  | nil => rfl
  | cons segment front ih => exact congrArg (segment.instruction seen :: ·) (ih _)

theorem length_instructions (seen : List Verb) (segments : List Segment) :
    (instructions seen segments).length = segments.length := by
  induction segments generalizing seen with
  | nil => rfl
  | cons segment rest ih => exact congrArg (· + 1) (ih _)

/-- Of a verb that occurs once there is one instruction at most: that of the first segment
    that names it. -/
theorem filter_instructions (hstyled : v.styled? = some make) (seen : List Verb)
    (segments : List Segment) :
    (instructions seen segments).filter (fun i => i.verb? = some v) =
      if v ∈ seen then []
      else ((first? v segments).map fun segment => make segment.style).toList := by
  induction segments generalizing seen with
  | nil => simp [instructions, withSeen, first?]
  | cons segment rest ih =>
    have hcons : instructions seen (segment :: rest) =
        segment.instruction seen :: instructions (segment.seenBehind seen) rest := rfl
    have hverb := verb?_instruction seen segment hstyled
    have hseen := mem_seenBehind seen segment hstyled
    rw [hcons, List.filter_cons, ih]
    by_cases hmem : v ∈ seen
    · simp [hverb, hseen, hmem]
    · by_cases hv : segment.verb? = some v
      · have hmade := instruction_of_styled seen hv hstyled
        simp [hmade, hseen, hmem, hv, first?, Verb.verb?_of_styled hstyled]
      · simp [hverb, hseen, hmem, hv, first?]

end Segment

namespace State

variable {s : State}

theorem frameLayout_flush (s : State) : s.flush.frameLayout = s.frameLayout := by
  unfold flush
  split <;> rfl

/-- A caller gives the frame layout, unless there was one before. -/
theorem frameLayout_take (s : State) (segment : Segment) :
    (s.take segment).frameLayout =
      if segment.verb? = some .caller ∧ .caller ∉ s.seen then
        some (FrameLayout.ofDirectives segment.directives)
      else s.frameLayout := by
  cases segment with
  | verb text =>
    by_cases hv : (Segment.verb text).verb? = some .caller
    · have hread := Segment.read_of_styled s.seen hv rfl
      by_cases hmem : Verb.caller ∈ s.seen
      · rw [if_pos hmem] at hread
        rw [if_neg fun h => h.2 hmem]
        simp only [take, State.verb, hread]
        rfl
      · rw [if_neg hmem] at hread
        rw [if_pos ⟨hv, hmem⟩, Segment.directives, hv]
        simp only [take, State.verb, hread, Verb.frameLayout?]
        rfl
    · rw [if_neg fun h => hv h.1]
      cases hread : Verb.read s.seen text with
      | error fault =>
        simp only [take, State.verb, hread]
        rfl
      | ok result =>
        have hother : result.1 ≠ .caller := fun h => hv (h ▸ (Segment.verb?_of_read hread).1)
        simp only [take, State.verb, hread, Verb.frameLayout?, if_neg hother, Option.none_or,
          frameLayout_flush]
  | _ => rfl

theorem frameLayout_foldl (s : State) (segments : List Segment) :
    (segments.foldl take s).frameLayout =
      if .caller ∈ s.seen then s.frameLayout
      else ((Segment.first? .caller segments).map fun segment =>
        FrameLayout.ofDirectives segment.directives).or s.frameLayout := by
  induction segments generalizing s with
  | nil => simp [Segment.first?]
  | cons segment rest ih =>
    have hseen := Segment.mem_seenBehind s.seen segment (rfl : Verb.caller.styled? = some _)
    rw [List.foldl_cons, ih, seen_take, frameLayout_take]
    by_cases hmem : .caller ∈ s.seen
    · simp [hseen, hmem]
    · by_cases hv : segment.verb? = some .caller
      · simp [hseen, hmem, hv, Segment.first?]
      · simp [hseen, hmem, hv, Segment.first?]

end State

end Template

theorem findSome?_fieldsStyle? (instructions : List Instruction) :
    instructions.findSome? Instruction.fieldsStyle? =
      (instructions.filter fun i => i.verb? = some .fields).findSome? Instruction.fieldsStyle? := by
  induction instructions with
  | nil => rfl
  | cons instruction rest ih =>
    cases instruction <;>
      simp [List.findSome?_cons, Instruction.verb?, Instruction.fieldsStyle?, ih]

namespace Template

/-- The text that is compiled for a template: that of the standard one for a blank one. -/
def sourceText (template : String) : String :=
  if Text.isAllBlank template.toList then standardText else template

namespace Segment

/-- The frame layout that the first caller of some segments gives. -/
def frameLayout (segments : List Segment) : FrameLayout :=
  ((first? .caller segments).map fun segment =>
    FrameLayout.ofDirectives segment.directives).getD .standard

theorem seenAfter_chars (seen : List Verb) (cs : List Char) :
    seenAfter seen (cs.map .char) = seen := by
  induction cs with
  | nil => rfl
  | cons c cs ih => exact ih

theorem instructions_chars (seen : List Verb) (cs : List Char) :
    instructions seen (cs.map .char) = cs.map fun c => .literal (String.ofList [c]) := by
  induction cs with
  | nil => rfl
  | cons c cs ih => exact congrArg (Instruction.literal (String.ofList [c]) :: ·) ih

theorem first?_chars (v : Verb) (cs : List Char) : first? v (cs.map .char) = none := by
  rw [first?, List.find?_eq_none]
  intro segment hsegment
  obtain ⟨c, -, rfl⟩ := List.mem_map.1 hsegment
  exact Bool.false_ne_true

theorem first?_append (v : Verb) (front back : List Segment) :
    first? v (front ++ back) = (first? v front).or (first? v back) :=
  List.find?_append

/-- The first segment that names a verb stands in front, if one there names it. -/
theorem first?_append_of_exists {v : Verb} {front : List Segment}
    (h : ∃ segment ∈ front, segment.verb? = some v) (back : List Segment) :
    first? v (front ++ back) = first? v front := by
  rw [first?_append]
  cases hfirst : first? v front with
  | none =>
    obtain ⟨segment, hsegment, hv⟩ := h
    exact absurd (decide_eq_true hv) (List.find?_eq_none.1 hfirst segment hsegment)
  | some segment => rfl

end Segment

end Template

namespace Program

open Template (Segment)

/-- The program that segments are compiled to. -/
def ofSegments (segments : List Segment) : Program :=
  ⟨fuseLiterals (Segment.instructions [] segments), Segment.frameLayout segments⟩

theorem compile_eq_ofSegments {template : String} {segments : List Segment}
    (hcut : Template.Cut (Template.sourceText template).toList segments) :
    (compile template).program = ofSegments segments := by
  obtain ⟨segments', hcut', hscan⟩ :=
    Template.scan_eq_foldl .start (Template.sourceText template).toList
  obtain rfl := hcut'.unique hcut
  have hlayout := Template.State.frameLayout_foldl .start segments'
  have hunseen : Verb.caller ∉ Template.State.start.seen := List.not_mem_nil
  rw [if_neg hunseen] at hlayout
  have hprogram : (compile template).program =
      ⟨fuseLiterals (Template.scan .start (Template.sourceText template).toList).instructions,
        (Template.scan .start (Template.sourceText template).toList).frameLayout.getD .standard⟩ :=
    rfl
  rw [hprogram, hscan, Template.State.fuseLiterals_taken, Template.State.frameLayout_flush, hlayout]
  exact congrArg (fun layout => Program.mk _ (Option.getD layout _)) Option.or_none

variable {v : Verb} {make : VerbStyle → Instruction} {front behind : List Segment}
  {segment : Segment}

/-- A verb that occurs once stays literal text where it occurs again: the program is that of
    its characters. -/
theorem ofSegments_repeated (hv : segment.verb? = some v) (hstyled : v.styled? = some make)
    (hpast : ∃ earlier ∈ front, earlier.verb? = some v) :
    ofSegments (front ++ segment :: behind) =
      ofSegments (front ++ (segment.source.map .char ++ behind)) := by
  have hmem : v ∈ Segment.seenAfter [] front :=
    (Segment.mem_seenAfter hstyled [] front).2 (.inr hpast)
  have hmade : Segment.instructions (Segment.seenAfter [] front) (segment :: behind) =
      .literal (String.ofList segment.source) ::
        Segment.instructions (Segment.seenAfter [] front) behind := by
    have hcons : Segment.instructions (Segment.seenAfter [] front) (segment :: behind) =
        segment.instruction (Segment.seenAfter [] front) ::
          Segment.instructions (segment.seenBehind (Segment.seenAfter [] front)) behind := rfl
    rw [hcons, Segment.instruction_of_styled _ hv hstyled, if_pos hmem,
      Segment.seenBehind_of_mem hmem hv hstyled]
  have hinstructions : fuseLiterals (Segment.instructions [] (front ++ segment :: behind)) =
      fuseLiterals (Segment.instructions [] (front ++ (segment.source.map .char ++ behind))) := by
    simp only [Segment.instructions_append, hmade, Segment.instructions_chars,
      Segment.seenAfter_chars]
    exact fuseLiterals_append_congr _ (fuseLiterals_chars _ _).symm
  have hfirst : Segment.first? .caller (front ++ segment :: behind) =
      Segment.first? .caller (front ++ (segment.source.map .char ++ behind)) := by
    by_cases hcaller : segment.verb? = some .caller
    · -- the first caller stands before
      obtain rfl := Option.some.inj (hv.symm.trans hcaller)
      rw [Segment.first?_append_of_exists hpast, Segment.first?_append_of_exists hpast]
    · have hskip : Segment.first? .caller (segment :: behind) = Segment.first? .caller behind :=
        List.find?_cons_of_neg (by simpa using hcaller)
      simp only [Segment.first?_append, Segment.first?_chars, Option.none_or, hskip]
  rw [ofSegments, ofSegments, hinstructions, Segment.frameLayout, Segment.frameLayout, hfirst]

/-- Of a verb that occurs once a program has one instruction at most: that of the first
    segment that names it. -/
theorem filter_ofSegments (hstyled : v.styled? = some make) (segments : List Segment) :
    (ofSegments segments).instructions.filter (fun i => i.verb? = some v) =
      ((Segment.first? v segments).map fun segment => make segment.style).toList := by
  rw [ofSegments, filter_fuseLiterals fun _ => rfl, Segment.filter_instructions hstyled,
    if_neg List.not_mem_nil]

/-- The style of the fields beneath frames is that of the first fields verb. -/
theorem fieldsStyle?_ofSegments (segments : List Segment) :
    (ofSegments segments).fieldsStyle? =
      (Segment.first? .fields segments).map Segment.style := by
  rw [fieldsStyle?, findSome?_fieldsStyle?, filter_ofSegments rfl]
  cases Segment.first? .fields segments <;> rfl

/-- What a segment makes that names a verb that occurs once. -/
theorem instructions_getElem? (front behind : List Segment) (hv : segment.verb? = some v)
    (hstyled : v.styled? = some make) :
    (Segment.instructions [] (front ++ segment :: behind))[front.length]? =
      some (if v ∈ Segment.seenAfter [] front then .literal (String.ofList segment.source)
        else make segment.style) := by
  rw [Segment.instructions_append, ← Segment.length_instructions [] front,
    List.getElem?_append_right (Nat.le_refl _), Nat.sub_self,
    ← Segment.instruction_of_styled _ hv hstyled]
  rfl

/-- In every template, of the segments that name a verb that occurs once the first one makes
    its instruction, with the style of its own directives, and every later one is literal text,
    as if its characters stood there. So the program has one instruction at most of bodies,
    fields, stack traces and callers each. Every stack trace lays out the fields beneath its
    frames as the first fields verb does, and its frames, like the callers do, as the first
    caller does, wherever these verbs stand. -/
theorem compile_singleUse (template : String) :
    ∃ segments, Template.Cut (Template.sourceText template).toList segments ∧
      (compile template).program = ofSegments segments ∧
      (∀ front segment behind v make, segments = front ++ segment :: behind →
        segment.verb? = some v → v.styled? = some make →
        ((∀ earlier ∈ front, earlier.verb? ≠ some v) →
          (Segment.instructions [] segments)[front.length]? = some (make segment.style)) ∧
        ((∃ earlier ∈ front, earlier.verb? = some v) →
          (Segment.instructions [] segments)[front.length]? =
            some (.literal (String.ofList segment.source)) ∧
          (compile template).program =
            ofSegments (front ++ (segment.source.map .char ++ behind)))) ∧
      (∀ v : Verb, v.isSingleUse = true → ∃ make, v.styled? = some make ∧
        (compile template).program.instructions.filter (fun i => i.verb? = some v) =
          ((Segment.first? v segments).map fun segment => make segment.style).toList ∧
        ((compile template).program.instructions.filter fun i => i.verb? = some v).length ≤ 1) ∧
      ∀ (settings : RenderSettings) (e : Event) (style : VerbStyle),
        let layout := ((Segment.first? .caller segments).map fun segment =>
          FrameLayout.ofDirectives segment.directives).getD .standard
        let beneath := (Segment.first? .fields segments).map Segment.style
        (compile template).program.renderInstruction settings e (.caller style) =
          style.callerText layout e ∧
        (compile template).program.renderInstruction settings e (.trace style) =
          TraceStyle.render ⟨style, layout, .beneathFrames style beneath⟩
            (e.traceBlocks settings.keepZeros) := by
  obtain ⟨segments, hcut, -⟩ :=
    Template.scan_eq_foldl .start (Template.sourceText template).toList
  have hprogram := compile_eq_ofSegments hcut
  refine ⟨segments, hcut, hprogram, ?_, ?_, ?_⟩
  · rintro front segment behind v make rfl hv hstyled
    have hseen := Segment.mem_seenAfter hstyled [] front
    have hmade := instructions_getElem? front behind hv hstyled
    constructor
    · intro hfirst
      rw [hmade, if_neg]
      intro hmem
      obtain ⟨earlier, hearlier, hnamed⟩ := (hseen.1 hmem).resolve_left List.not_mem_nil
      exact hfirst earlier hearlier hnamed
    · intro hpast
      rw [hmade, if_pos (hseen.2 (.inr hpast)), hprogram]
      exact ⟨rfl, ofSegments_repeated hv hstyled hpast⟩
  · intro v hsingle
    obtain ⟨make, hstyled⟩ := Verb.exists_styled hsingle
    have hfilter := filter_ofSegments hstyled segments
    refine ⟨make, hstyled, ?_, ?_⟩
    · rw [hprogram, hfilter]
    · rw [hprogram, hfilter]
      cases Segment.first? v segments <;> simp
  · intro settings e style layout beneath
    have hlayout : (compile template).program.frameLayout = layout := by
      rw [hprogram]
      rfl
    have hbeneath : (compile template).program.fieldsStyle? = beneath := by
      rw [hprogram, fieldsStyle?_ofSegments]
    refine ⟨?_, ?_⟩
    · rw [renderInstruction, hlayout]
    · rw [renderInstruction, traceStyle, hlayout, hbeneath]

/-- The second caller and the second fields verb stay as they stand. The stack trace, which
    stands before both fields verbs, has the frame layout of the first caller and the keys of
    the first fields verb. -/
theorem compile_singleUse_repeated :
    let template := "\x7b\x7bw/fmt:n\x7d\x7d\x7b\x7bs\x7d\x7d\x7b\x7bwho/fmt:F\x7d\x7d" ++
      "\x7b\x7bf/bk:<\x7d\x7d\x7b\x7bfields/ak:>\x7d\x7d"
    let e : Event := ⟨.error, default, .ofSteps [.withTrace [⟨"app::main", "src/main.rs", 9⟩]],
      some (.ofSteps [.addField ⟨"size", .nat8 3, 0, false, false⟩])⟩
    (compile template).program.instructions =
      [.caller .plain, .trace .plain, .literal "\x7b\x7bwho/fmt:F\x7d\x7d",
        .fields ⟨"", "", "<", "", "", none, none, 0, false⟩,
        .literal "\x7b\x7bfields/ak:>\x7d\x7d"] ∧
    (compile template).program.frameLayout = [.fileName] ∧
    (compile template).program.renderInstruction ⟨.standard, false⟩ e (.caller .plain) =
      "main.rs" ∧
    (compile template).program.renderInstruction ⟨.standard, false⟩ e (.trace .plain) =
      "main.rs\n\t<size3" := by
  intro template e
  obtain ⟨segments, hcut, hprogram, -, -, hrender⟩ := compile_singleUse template
  have hverbs := Template.cut_verbs (by decide : ∀ text ∈ ["w/fmt:n".toList, ['s'],
    "who/fmt:F".toList, "f/bk:<".toList, "fields/ak:>".toList], BraceFree text)
  have hsource : (Template.sourceText template).toList =
      ["w/fmt:n".toList, ['s'], "who/fmt:F".toList, "f/bk:<".toList,
        "fields/ak:>".toList].flatMap fun text =>
          Template.opening ++ text ++ Template.closing := by
    decide
  rw [hsource] at hcut
  obtain rfl := hverbs.unique hcut
  obtain ⟨hcaller, htrace⟩ := hrender ⟨.standard, false⟩ e .plain
  refine ⟨?_, ?_, hcaller.trans (by decide +kernel), htrace.trans (by decide +kernel)⟩
  · rw [hprogram]
    rfl
  · rw [hprogram]
    rfl

end Program

end Logbook
