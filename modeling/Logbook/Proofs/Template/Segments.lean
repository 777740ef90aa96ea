import Logbook.Proofs.Template.Fusion
import Logbook.Template.Source

/-!
# Segments of a template

Compiling cuts a template into segments: characters, opening braces behind a
backslash, opening braces that begin no verb, and verbs. `Cut` says where each of
them stands, without going through the template, and `Cut.unique` that a text has
no second cut. `scan_eq_foldl` shows that compiling takes the segments of a cut
one after another, and `compile_eq_segments` what it makes of them: one
instruction of each, and a report of each one that stays literal text.
-/

namespace Logbook

namespace Template

/-- A piece of the source of a template. -/
inductive Segment where
  | char (c : Char)
  | escapedOpening
  | loneOpening
  | verb (text : List Char)
  deriving DecidableEq

namespace Segment

/-- The text of a segment in the template. -/
def source : Segment → List Char
  | char c => [c]
  | escapedOpening => '\\' :: opening
  | loneOpening => opening
  | verb text => opening ++ text ++ closing

/-- Why the segment stays literal text, if it does, behind the given verbs. -/
def fault? (seen : List Verb) : Segment → Option VerbFault
  | char _ | escapedOpening => none
  | loneOpening => some .unterminated
  | verb text =>
    match Verb.read seen text with
    | .error fault => some fault
    | .ok _ => none

/-- The report of a segment that stays literal text. -/
def report? (seen : List Verb) (segment : Segment) : Option Diagnostic :=
  (segment.fault? seen).map fun fault => .verbDegraded (String.ofList segment.source) fault

/-- The instruction of a segment behind the given verbs. -/
def instruction (seen : List Verb) : Segment → Instruction
  | char c => .literal (String.ofList [c])
  | escapedOpening | loneOpening => .literal (String.ofList opening)
  | verb text =>
    match Verb.read seen text with
    | .ok (_, made) => made
    | .error _ => .literal (String.ofList (verb text).source)

/-- The verbs that occurred before the next segment. -/
def seenBehind (seen : List Verb) : Segment → List Verb
  | verb text =>
    match Verb.read seen text with
    | .ok (found, _) => found :: seen
    | .error _ => seen
  | _ => seen

/-- Segments with the verbs that occurred before each of them. -/
def withSeen (seen : List Verb) : List Segment → List (List Verb × Segment)
  | [] => []
  | segment :: rest => (seen, segment) :: withSeen (segment.seenBehind seen) rest

def instructions (seen : List Verb) (segments : List Segment) : List Instruction :=
  (withSeen seen segments).map fun (seen, segment) => segment.instruction seen

/-- The reports of the segments that stay literal text, in their order. -/
def reports (seen : List Verb) (segments : List Segment) : List Diagnostic :=
  (withSeen seen segments).filterMap fun (seen, segment) => segment.report? seen

theorem reports_cons (seen : List Verb) (segment : Segment) (rest : List Segment) :
    reports seen (segment :: rest) =
      (segment.report? seen).toList ++ reports (segment.seenBehind seen) rest := by
  cases hreport : segment.report? seen <;>
    simp [reports, withSeen, hreport]

end Segment

/-- Behind its opening braces the text begins with a verb: the first closing braces
    follow the verb, and all opening braces inside of it stand behind a backslash. -/
structure VerbAt (cs text after : List Char) : Prop where
  source : cs = text ++ closing ++ after
  first : ∀ front back, cs = front ++ closing ++ back → text.length ≤ front.length
  opened : ∀ front back, text = front ++ opening ++ back → front.getLast? = some '\\'

/-- The text is cut into the segments. -/
inductive Cut : List Char → List Segment → Prop where
  | nil : Cut [] []
  | escapedOpening {rest : List Char} {segments : List Segment} :
      Cut rest segments → Cut ('\\' :: '\x7b' :: '\x7b' :: rest) (.escapedOpening :: segments)
  | verb {rest text after : List Char} {segments : List Segment} :
      VerbAt rest text after → Cut after segments →
      Cut ('\x7b' :: '\x7b' :: rest) (.verb text :: segments)
  | loneOpening {rest : List Char} {segments : List Segment} :
      (∀ text after, ¬ VerbAt rest text after) → Cut rest segments →
      Cut ('\x7b' :: '\x7b' :: rest) (.loneOpening :: segments)
  | char {c : Char} {rest : List Char} {segments : List Segment} :
      ¬ opening <+: c :: rest → ¬ '\\' :: opening <+: c :: rest → Cut rest segments →
      Cut (c :: rest) (.char c :: segments)

/-- A text begins with one verb at most. -/
theorem VerbAt.unique {cs text text' after after' : List Char} (h : VerbAt cs text after)
    (h' : VerbAt cs text' after') : text = text' ∧ after = after' := by
  have hlen : text.length = text'.length :=
    Nat.le_antisymm (h.first text' after' h'.source) (h'.first text after h.source)
  have heq := h.source.symm.trans h'.source
  rw [List.append_assoc, List.append_assoc] at heq
  obtain ⟨htext, hafter⟩ := List.append_inj heq hlen
  exact ⟨htext, List.append_cancel_left hafter⟩

/-- The segments of a text are its text. -/
theorem Cut.flatMap_source {cs : List Char} {segments : List Segment} (h : Cut cs segments) :
    segments.flatMap Segment.source = cs := by
  induction h with
  | nil => rfl
  | escapedOpening _ ih => rw [List.flatMap_cons, ih]; rfl
  | verb hverb _ ih =>
    rw [List.flatMap_cons, ih, hverb.source, Segment.source, List.append_assoc, List.append_assoc,
      List.append_assoc]
    rfl
  | loneOpening _ _ ih => rw [List.flatMap_cons, ih]; rfl
  | char _ _ _ ih => rw [List.flatMap_cons, ih]; rfl

/-- A text is cut in one way only. -/
theorem Cut.unique {cs : List Char} {segments segments' : List Segment} (h : Cut cs segments)
    (h' : Cut cs segments') : segments = segments' := by
  -- the text at the front of `cs` leaves one constructor for the other cut
  induction h generalizing segments' with
  | nil => cases h'; rfl
  | escapedOpening _ ih =>
    cases h' with
    | escapedOpening h' => rw [ih h']
    | char _ hescaped _ => exact absurd (List.prefix_append _ _) hescaped
  | verb hverb _ ih =>
    cases h' with
    | verb hverb' h' =>
      obtain ⟨rfl, rfl⟩ := hverb.unique hverb'
      rw [ih h']
    | loneOpening hnone _ => exact absurd hverb (hnone _ _)
    | char hopening _ _ => exact absurd (List.prefix_append _ _) hopening
  | loneOpening hnone _ ih =>
    cases h' with
    | verb hverb _ => exact absurd hverb (hnone _ _)
    | loneOpening _ h' => rw [ih h']
    | char hopening _ _ => exact absurd (List.prefix_append _ _) hopening
  | char hopening hescaped _ ih =>
    cases h' with
    | escapedOpening _ => exact absurd (List.prefix_append _ _) hescaped
    | verb _ _ => exact absurd (List.prefix_append _ _) hopening
    | loneOpening _ _ => exact absurd (List.prefix_append _ _) hopening
    | char _ _ h' => rw [ih h']

/-- The opening braces of a text are those at its beginning and those behind its
    first character. -/
theorem forall_opening_cons {before c : Char} {rest : List Char} :
    (∀ front back, c :: rest = front ++ opening ++ back →
        (before :: front).getLast? = some '\\') ↔
      (opening <+: c :: rest → before = '\\') ∧
        ∀ front back, rest = front ++ opening ++ back → (c :: front).getLast? = some '\\' := by
  constructor
  · intro h
    constructor
    · rintro ⟨back, heq⟩
      exact Option.some.inj (h [] back heq.symm)
    · intro front back heq
      have hlast := h (c :: front) back (by rw [heq]; rfl)
      rwa [List.getLast?_cons_cons] at hlast
  · rintro ⟨hfirst, hrest⟩ front back heq
    cases front with
    | nil => exact congrArg some (hfirst ⟨back, heq.symm⟩)
    | cons d front =>
      rw [List.cons_append, List.cons_append, List.cons.injEq] at heq
      obtain ⟨rfl, heq⟩ := heq
      rw [List.getLast?_cons_cons]
      exact hrest front back heq

/-- Opening braces without a backslash before them are found wherever they stand. -/
theorem holdsOpening_eq_false_iff {c : Char} {cs : List Char} :
    holdsOpening c cs = false ↔
      ∀ front back, cs = front ++ opening ++ back → (c :: front).getLast? = some '\\' := by
  fun_induction holdsOpening c cs with
  | case1 before rest ih =>
    have hopening : opening <+: '\x7b' :: '\x7b' :: rest := List.prefix_append opening rest
    rw [forall_opening_cons, Bool.or_eq_false_iff, bne_eq_false_iff_eq, ih]
    exact and_congr_left fun _ => ⟨fun h _ => h, fun h => h hopening⟩
  | case2 before c rest hnot ih =>
    have hnone : ¬ opening <+: c :: rest := by
      rintro ⟨back, heq⟩
      obtain ⟨hc, hrest⟩ := List.cons.inj heq
      exact hnot back hc.symm hrest.symm
    rw [forall_opening_cons, ih]
    exact ⟨fun h => ⟨fun h' => absurd h' hnone, h⟩, And.right⟩
  | case3 before =>
    simp only [true_iff]
    intro front back heq
    cases front <;> cases heq

theorem holdsOpening_brace_eq_false_iff {text : List Char} :
    holdsOpening '\x7b' text = false ↔
      ∀ front back, text = front ++ opening ++ back → front.getLast? = some '\\' := by
  rw [holdsOpening_eq_false_iff]
  refine forall_congr' fun front => forall_congr' fun back => forall_congr' fun _ => ?_
  cases front with
  | nil => simp
  | cons d front => rw [List.getLast?_cons_cons]

/-- Compiling looks for a verb where one stands, and takes the whole of it. -/
theorem verbText?_eq_some_iff {cs text after : List Char} :
    verbText? cs = some (text, after) ↔ VerbAt cs text after := by
  unfold verbText?
  constructor
  · intro h
    obtain ⟨hcut, hopening⟩ := Option.filter_eq_some_iff.1 h
    exact ⟨Text.eq_append_of_splitFirstSeq hcut,
      fun front back hcs => Text.length_le_of_splitFirstSeq hcut hcs,
      holdsOpening_brace_eq_false_iff.1 (by simpa using hopening)⟩
  · intro h
    cases hcut : Text.splitFirstSeq closing cs with
    | none => exact absurd h.source (Text.ne_append_of_splitFirstSeq hcut text after)
    | some parts =>
      obtain ⟨text', after'⟩ := parts
      have hsource := Text.eq_append_of_splitFirstSeq hcut
      -- both cuts are at the first closing braces
      have hlen : text'.length = text.length :=
        Nat.le_antisymm (Text.length_le_of_splitFirstSeq hcut h.source)
          (h.first text' after' hsource)
      have heq := hsource.symm.trans h.source
      rw [List.append_assoc, List.append_assoc] at heq
      obtain ⟨rfl, hafter⟩ := List.append_inj heq hlen
      rw [List.append_cancel_left hafter, Option.filter_some, if_pos]
      change (!holdsOpening '\x7b' text') = true
      rw [holdsOpening_brace_eq_false_iff.2 h.opened]
      rfl

/-- What compiling does with a segment. -/
def State.take (s : State) : Segment → State
  | .char c => s.keep [c]
  | .escapedOpening => s.keep opening
  | .loneOpening => s.degrade opening .unterminated
  | .verb text => s.verb text

/-- Every text has a cut, and compiling takes its segments one after another. -/
theorem scan_eq_foldl (s : State) (cs : List Char) :
    ∃ segments, Cut cs segments ∧ scan s cs = (segments.foldl State.take s).flush := by
  fun_induction scan s cs with
  | case1 s rest ih =>
    obtain ⟨segments, hcut, hscan⟩ := ih
    exact ⟨.escapedOpening :: segments, .escapedOpening hcut, hscan⟩
  | case2 s rest text after hverb ih =>
    obtain ⟨segments, hcut, hscan⟩ := ih
    exact ⟨.verb text :: segments, .verb (verbText?_eq_some_iff.1 hverb) hcut, hscan⟩
  | case3 s rest hnone ih =>
    obtain ⟨segments, hcut, hscan⟩ := ih
    refine ⟨.loneOpening :: segments, .loneOpening ?_ hcut, hscan⟩
    intro text after hverb
    rw [verbText?_eq_some_iff.2 hverb] at hnone
    cases hnone
  | case4 s c rest hescaped hopening ih =>
    obtain ⟨segments, hcut, hscan⟩ := ih
    refine ⟨.char c :: segments, .char ?_ ?_ hcut, hscan⟩
    · rintro ⟨back, heq⟩
      obtain ⟨hc, hrest⟩ := List.cons.inj heq
      exact hopening back hc.symm hrest.symm
    · rintro ⟨back, heq⟩
      obtain ⟨hc, hrest⟩ := List.cons.inj heq
      exact hescaped back hc.symm hrest.symm
  | case5 s => exact ⟨[], .nil, rfl⟩

namespace State

variable {s : State}

/-- The instructions so far, with the literal text since the last one as one more. -/
def pending (s : State) : List Instruction := s.instructions ++ [.literal (String.ofList s.chars)]

theorem chars_flush (s : State) : s.flush.chars = [] := by
  unfold flush
  split
  · next h => exact List.isEmpty_iff.1 h
  · rfl

theorem seen_flush (s : State) : s.flush.seen = s.seen := by
  unfold flush
  split <;> rfl

theorem diagnostics_flush (s : State) : s.flush.diagnostics = s.diagnostics := by
  unfold flush
  split <;> rfl

theorem fuseLiterals_flush (s : State) (back : List Instruction) :
    fuseLiterals (s.flush.instructions ++ back) = fuseLiterals (s.pending ++ back) := by
  unfold flush pending
  split
  · next hempty =>
    rw [List.isEmpty_iff.1 hempty, List.append_assoc]
    exact fuseLiterals_append_congr _ (fuseLiterals_literal_empty back).symm
  · rfl

/-- Literal text that is kept is a literal behind the literal text so far. -/
theorem fuseLiterals_pending_keep (s : State) (chars : List Char) (back : List Instruction) :
    fuseLiterals ((s.keep chars).pending ++ back) =
      fuseLiterals (s.pending ++ .literal (String.ofList chars) :: back) := by
  rw [pending, pending, keep, String.ofList_append, List.append_assoc, List.append_assoc]
  exact fuseLiterals_append_congr _ (fuseLiterals_literal_literal _ _ back).symm

/-- Taking a segment adds its instruction. -/
theorem fuseLiterals_pending_take (s : State) (segment : Segment) (back : List Instruction) :
    fuseLiterals ((s.take segment).pending ++ back) =
      fuseLiterals (s.pending ++ segment.instruction s.seen :: back) := by
  cases segment with
  | char c => exact fuseLiterals_pending_keep s [c] back
  | escapedOpening => exact fuseLiterals_pending_keep s opening back
  | loneOpening => exact fuseLiterals_pending_keep s opening back
  | verb text =>
    cases hread : Verb.read s.seen text with
    | error fault =>
      simp only [take, State.verb, Segment.instruction, hread]
      exact fuseLiterals_pending_keep s (opening ++ text ++ closing) back
    | ok result =>
      obtain ⟨found, made⟩ := result
      -- the literal text before the verb was flushed, so that none is left behind it
      simp only [take, State.verb, Segment.instruction, hread, pending, chars_flush]
      rw [List.append_assoc, List.append_assoc, ← pending, ← fuseLiterals_flush s (made :: back)]
      refine fuseLiterals_append_congr _ ?_
      exact fuseLiterals_cons_congr made (fuseLiterals_literal_empty back)

theorem seen_take (s : State) (segment : Segment) :
    (s.take segment).seen = segment.seenBehind s.seen := by
  cases segment with
  | verb text =>
    cases hread : Verb.read s.seen text with
    | error fault => simp only [take, State.verb, Segment.seenBehind, hread]; rfl
    | ok result => simp only [take, State.verb, Segment.seenBehind, hread, seen_flush]
  | _ => rfl

/-- Taking a segment reports it, if it stays literal text. -/
theorem diagnostics_take (s : State) (segment : Segment) :
    (s.take segment).diagnostics = s.diagnostics ++ (segment.report? s.seen).toList := by
  cases segment with
  | char c => exact (List.append_nil _).symm
  | escapedOpening => exact (List.append_nil _).symm
  | loneOpening => rfl
  | verb text =>
    cases hread : Verb.read s.seen text with
    | error fault => simp only [take, State.verb, Segment.report?, Segment.fault?, hread]; rfl
    | ok result =>
      simp only [take, State.verb, Segment.report?, Segment.fault?, hread, diagnostics_flush]
      exact (List.append_nil _).symm

/-- Taking segments adds their instructions. -/
theorem fuseLiterals_pending_foldl (s : State) (segments : List Segment) :
    fuseLiterals (segments.foldl take s).pending =
      fuseLiterals (s.pending ++ Segment.instructions s.seen segments) := by
  induction segments generalizing s with
  | nil => rw [Segment.instructions, Segment.withSeen, List.map_nil, List.append_nil]; rfl
  | cons segment rest ih =>
    rw [List.foldl_cons, ih, seen_take, fuseLiterals_pending_take]
    rfl

/-- At the end of a template the instructions are those of its segments. -/
theorem fuseLiterals_taken (segments : List Segment) :
    fuseLiterals (segments.foldl take start).flush.instructions =
      fuseLiterals (Segment.instructions [] segments) := by
  have hflush := fuseLiterals_flush (segments.foldl take start) []
  rw [List.append_nil, List.append_nil, fuseLiterals_pending_foldl] at hflush
  rw [hflush]
  exact fuseLiterals_literal_empty _

/-- Taking segments adds their reports. -/
theorem diagnostics_foldl (s : State) (segments : List Segment) :
    (segments.foldl take s).diagnostics = s.diagnostics ++ Segment.reports s.seen segments := by
  induction segments generalizing s with
  | nil => exact (List.append_nil _).symm
  | cons segment rest ih =>
    rw [List.foldl_cons, ih, seen_take, diagnostics_take, List.append_assoc, Segment.reports_cons]

end State

end Template

/-- The instructions of a template are those of its segments, and the segments that
    stay literal text are reported. -/
theorem Program.compile_of_cut {template : String} {segments : List Template.Segment}
    (hblank : ∃ c ∈ template.toList, Text.isBlank c = false)
    (hcut : Template.Cut template.toList segments) :
    (compile template).program.instructions =
        fuseLiterals (Template.Segment.instructions [] segments) ∧
      (compile template).diagnostics = Template.Segment.reports [] segments ++
        [.templateCompiled (compile template).program.instructions.length
          (compile template).program.expectedSize] := by
  have hsource : Text.isAllBlank template.toList = false := by
    obtain ⟨c, hc, hnot⟩ := hblank
    rw [Text.isAllBlank, List.all_eq_false]
    exact ⟨c, hc, by simp [hnot]⟩
  obtain ⟨segments', hcut', hscan⟩ := Template.scan_eq_foldl .start template.toList
  obtain rfl := hcut'.unique hcut
  constructor
  · simp only [compile, hsource, hscan, Bool.false_eq_true, if_false]
    exact Template.State.fuseLiterals_taken segments'
  · have hreports := Template.State.diagnostics_foldl .start segments'
    simp only [compile, hsource, hscan, Bool.false_eq_true, if_false,
      Template.State.diagnostics_flush, hreports]
    rfl

/-- A template that is not blank is cut into segments in exactly one way, and they
    are its text. Its instructions are those of its segments with runs of literals
    made one: the character, two opening braces, or for a verb the instruction of
    its text behind the verbs before it, or else its source. What is reported is
    every segment that stays literal text, in their order, and then the compiled
    program; where all verbs make sense, it is the program alone. -/
theorem Program.compile_eq_segments (template : String)
    (hblank : ∃ c ∈ template.toList, Text.isBlank c = false) :
    ∃ segments, Template.Cut template.toList segments ∧
      (∀ segments', Template.Cut template.toList segments' → segments' = segments) ∧
      segments.flatMap Template.Segment.source = template.toList ∧
      (compile template).program.instructions =
        fuseLiterals (Template.Segment.instructions [] segments) ∧
      (compile template).diagnostics = Template.Segment.reports [] segments ++
        [.templateCompiled (compile template).program.instructions.length
          (compile template).program.expectedSize] ∧
      ((∀ place ∈ Template.Segment.withSeen [] segments, place.2.fault? place.1 = none) →
        (compile template).diagnostics =
          [.templateCompiled (compile template).program.instructions.length
            (compile template).program.expectedSize]) := by
  obtain ⟨segments, hcut, -⟩ := Template.scan_eq_foldl .start template.toList
  obtain ⟨hinstructions, hdiagnostics⟩ := compile_of_cut hblank hcut
  refine ⟨segments, hcut, fun _ h => h.unique hcut, hcut.flatMap_source, hinstructions,
    hdiagnostics, ?_⟩
  intro hnone
  have hreports : Template.Segment.reports [] segments = [] := by
    rw [Template.Segment.reports, List.filterMap_eq_nil_iff]
    intro place hplace
    exact congrArg (Option.map _) (hnone place hplace)
  rw [hdiagnostics, hreports, List.nil_append]

/-- Braces around no name of a verb and the opening braces at the end stay. -/
theorem Program.compile_eq_segments_mixed :
    (∃ c ∈ "\x7b\x7bx\x7d\x7d\x7b\x7bm\x7d\x7d\x7b\x7b".toList, Text.isBlank c = false) ∧
      (compile "\x7b\x7bx\x7d\x7d\x7b\x7bm\x7d\x7d\x7b\x7b").program.instructions =
        [.literal "\x7b\x7bx\x7d\x7d", .body .plain, .literal "\x7b\x7b"] ∧
      (compile "\x7b\x7bx\x7d\x7d\x7b\x7bm\x7d\x7d\x7b\x7b").diagnostics =
        [.verbDegraded "\x7b\x7bx\x7d\x7d" .unknownAlias, .verbDegraded "\x7b\x7b" .unterminated,
          .templateCompiled 3 263] := by
  have hblank : ∃ c ∈ "\x7b\x7bx\x7d\x7d\x7b\x7bm\x7d\x7d\x7b\x7b".toList, Text.isBlank c = false :=
    ⟨'x', by decide, by decide⟩
  have hx : Template.VerbAt "x\x7d\x7d\x7b\x7bm\x7d\x7d\x7b\x7b".toList ['x']
      "\x7b\x7bm\x7d\x7d\x7b\x7b".toList := Template.verbText?_eq_some_iff.1 (by decide)
  have hm : Template.VerbAt "m\x7d\x7d\x7b\x7b".toList ['m'] "\x7b\x7b".toList :=
    Template.verbText?_eq_some_iff.1 (by decide)
  have hend : ∀ text after, ¬ Template.VerbAt [] text after := by
    intro text after hverb
    cases Template.verbText?_eq_some_iff.2 hverb
  obtain ⟨segments, -, hunique, -, hinstructions, hdiagnostics, -⟩ := compile_eq_segments _ hblank
  have hsegments : [.verb ['x'], .verb ['m'], .loneOpening] = segments :=
    hunique _ (.verb hx (.verb hm (.loneOpening hend .nil)))
  subst hsegments
  have hprogram : (compile "\x7b\x7bx\x7d\x7d\x7b\x7bm\x7d\x7d\x7b\x7b").program.instructions =
      [.literal "\x7b\x7bx\x7d\x7d", .body .plain, .literal "\x7b\x7b"] := by
    rw [hinstructions]
    rfl
  refine ⟨hblank, hprogram, ?_⟩
  rw [hdiagnostics, Program.expectedSize, hprogram]
  decide

end Logbook
