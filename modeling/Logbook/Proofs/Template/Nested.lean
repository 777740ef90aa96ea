import Logbook.Proofs.Template.Segments
import Logbook.Template.Encoder

/-!
# Opening braces inside of a verb

Compiling treats a backslash before two opening braces in two places. Going through a
template it takes the three characters as one escape, and in the text up to the first
closing braces it looks at the character before each two opening braces.
`meetsOpening` is the first of the two rules, applied to the text of a verb.
`holdsOpening_brace_eq_true_iff` says where they disagree: an escape with a third
opening brace behind it is no opening for the first rule and one for the second.
`opening_begins_verb_iff` says which of the opening braces in a template begin a verb.
-/

namespace Logbook

namespace Template

/-- Going through the text as compiling goes through a template, two opening braces
    are met that are no part of an escape. -/
def meetsOpening : List Char → Bool
  | '\\' :: '\x7b' :: '\x7b' :: rest => meetsOpening rest
  | '\x7b' :: '\x7b' :: _ => true
  | _ :: rest => meetsOpening rest
  | [] => false

/-- An escape with a third opening brace behind it. -/
def crowdedEscape : List Char := '\\' :: opening ++ ['\x7b']

/-- A crowded escape stands at the front of a text, or behind its first character. -/
theorem crowdedEscape_infix_cons {c : Char} {rest : List Char} :
    crowdedEscape <:+: c :: rest ↔ crowdedEscape <+: c :: rest ∨ crowdedEscape <:+: rest :=
  List.infix_cons_iff

/-- A crowded escape does not begin with a brace. -/
theorem crowdedEscape_infix_brace {rest : List Char} :
    crowdedEscape <:+: '\x7b' :: rest ↔ crowdedEscape <:+: rest := by
  rw [crowdedEscape_infix_cons, or_iff_right]
  intro hprefix
  exact absurd (List.cons_prefix_cons.1 hprefix).1 (by decide)

/-- Behind the second brace of an escape only a third one makes an opening. -/
theorem holdsOpening_brace_brace {rest : List Char} :
    holdsOpening '\x7b' ('\x7b' :: rest) = true ↔
      ['\x7b'] <+: rest ∨ holdsOpening '\x7b' rest = true := by
  cases rest with
  | nil => simp [holdsOpening]
  | cons c rest =>
    by_cases hc : c = '\x7b'
    · subst hc
      simp [holdsOpening]
    · rw [holdsOpening]
      · simp [List.cons_prefix_cons, Ne.symm hc]
      · intro back _ heq
        exact hc (List.cons.inj heq).1

/-- The two rules for escapes agree on a text, unless an escape in it is crowded. -/
theorem holdsOpening_eq_true_iff {before : Char} {cs : List Char}
    (h : before = '\\' → ¬ opening <+: cs) :
    holdsOpening before cs = true ↔ meetsOpening cs = true ∨ crowdedEscape <:+: cs := by
  fun_induction meetsOpening cs generalizing before with
  | case1 rest ih =>
    -- the first rule goes on behind the escape, the second one character earlier
    have hcrowded : crowdedEscape <+: '\\' :: '\x7b' :: '\x7b' :: rest ↔ ['\x7b'] <+: rest := by
      simp [crowdedEscape, opening, List.cons_prefix_cons]
    have hholds : holdsOpening before ('\\' :: '\x7b' :: '\x7b' :: rest) =
        holdsOpening '\x7b' ('\x7b' :: rest) := by
      simp [holdsOpening]
    have hrest : holdsOpening '\x7b' rest = true ↔
        meetsOpening rest = true ∨ crowdedEscape <:+: rest := ih nofun
    rw [hholds, holdsOpening_brace_brace, hrest, crowdedEscape_infix_cons, hcrowded,
      crowdedEscape_infix_brace, crowdedEscape_infix_brace]
    exact or_left_comm
  | case2 rest =>
    have hbefore : before ≠ '\\' := fun heq => h heq (List.prefix_append opening rest)
    simp [holdsOpening, hbefore]
  | case3 c rest hescape hopening ih =>
    have hcrowded : ¬ crowdedEscape <+: c :: rest := by
      rintro ⟨back, heq⟩
      obtain ⟨hc, hrest⟩ := List.cons.inj heq
      exact hescape _ hc.symm hrest.symm
    have hholds : holdsOpening before (c :: rest) = holdsOpening c rest := by
      rw [holdsOpening]
      intro back hc hrest
      exact hopening back hc hrest
    have hnext : c = '\\' → ¬ opening <+: rest := by
      rintro hc ⟨back, heq⟩
      exact hescape back hc heq.symm
    rw [hholds, ih hnext, crowdedEscape_infix_cons, or_iff_right hcrowded]
  | case4 => simp [holdsOpening, crowdedEscape]

/-- The text of a verb holds no opening exactly if none is met in it and no escape in it
    is crowded. -/
theorem holdsOpening_brace_eq_false_iff_meets {text : List Char} :
    holdsOpening '\x7b' text = false ↔
      meetsOpening text = false ∧ ¬ crowdedEscape <:+: text := by
  have hholds : holdsOpening '\x7b' text = true ↔
      meetsOpening text = true ∨ crowdedEscape <:+: text := holdsOpening_eq_true_iff nofun
  rw [← Bool.not_eq_true, hholds, not_or, Bool.not_eq_true]

/-- The segments from any place on are a cut of what stands there. -/
theorem Cut.drop {cs : List Char} {front back : List Segment} (h : Cut cs (front ++ back)) :
    Cut (back.flatMap Segment.source) back := by
  induction front generalizing cs with
  | nil =>
    rw [List.nil_append] at h
    exact h.flatMap_source.symm ▸ h
  | cons segment front ih =>
    cases h with
    | escapedOpening h => exact ih h
    | verb _ h => exact ih h
    | loneOpening _ h => exact ih h
    | char _ _ h => exact ih h

/-- Opening braces that are no part of an escape begin a verb or stay alone. -/
theorem Cut.opening_cases {rest : List Char} {segment : Segment} {back : List Segment}
    (h : Cut (opening ++ rest) (segment :: back)) :
    (∃ text after, segment = .verb text ∧ verbText? rest = some (text, after)) ∨
      (segment = .loneOpening ∧ verbText? rest = none) := by
  cases h with
  | verb hverb _ => exact .inl ⟨_, _, rfl, verbText?_eq_some_iff.2 hverb⟩
  | loneOpening hnone _ =>
    refine .inr ⟨rfl, Option.eq_none_iff_forall_ne_some.2 fun parts hparts => ?_⟩
    exact hnone _ _ (verbText?_eq_some_iff.1 hparts)
  | char hopening _ _ => exact absurd (List.prefix_append _ _) hopening

/-- A cut of a text that begins with opening braces begins with what they are. -/
theorem Cut.exists_opening {rest : List Char} {segments : List Segment}
    (h : Cut (opening ++ rest) segments) :
    ∃ segment back, segments = segment :: back ∧
      (segment :: back).flatMap Segment.source = opening ++ rest := by
  cases segments with
  | nil => cases h
  | cons segment back => exact ⟨segment, back, rfl, h.flatMap_source⟩

/-- The text up to the first closing braces is that of a verb exactly if it holds no
    opening. -/
theorem verbText?_eq_some_iff_of_splitFirstSeq {rest text after : List Char}
    (h : Text.splitFirstSeq closing rest = some (text, after)) {parts : List Char × List Char} :
    verbText? rest = some parts ↔ parts = (text, after) ∧ holdsOpening '\x7b' text = false := by
  rw [verbText?, Option.filter_eq_some_iff, h, Option.some_inj, Bool.not_eq_true', eq_comm]
  constructor
  · rintro ⟨rfl, hopening⟩
    exact ⟨rfl, hopening⟩
  · rintro ⟨rfl, hopening⟩
    exact ⟨rfl, hopening⟩

/-- Which opening braces begin a verb. A template is cut into segments in one way, and
    compiling takes them one after another. Take any place between two segments where
    two opening braces stand, and the text behind them up to the first closing braces.
    They begin a verb with this text exactly if compiling would not meet another
    opening on its way through the text, and no escape in the text has a third opening
    brace behind it. All others, and all without closing braces, stay alone and become
    literal text. -/
theorem opening_begins_verb_iff (source : List Char) :
    ∃ segments, Cut source segments ∧ (∀ segments', Cut source segments' → segments' = segments) ∧
      scan .start source = (segments.foldl State.take .start).flush ∧
      ∀ front segment back rest, segments = front ++ segment :: back →
        (segment :: back).flatMap Segment.source = opening ++ rest →
        (∀ text after, Text.splitFirstSeq closing rest = some (text, after) →
          (segment = .verb text ↔ meetsOpening text = false ∧ ¬ crowdedEscape <:+: text) ∧
          (segment ≠ .verb text → segment = .loneOpening)) ∧
        (Text.splitFirstSeq closing rest = none → segment = .loneOpening) := by
  obtain ⟨segments, hcut, hscan⟩ := scan_eq_foldl .start source
  refine ⟨segments, hcut, fun _ h => h.unique hcut, hscan, ?_⟩
  intro front segment back rest hsegments hrest
  have hplace : Cut (opening ++ rest) (segment :: back) := hrest ▸ (hsegments ▸ hcut).drop
  refine ⟨fun text after hclosing => ?_, fun hclosing => ?_⟩
  · rw [← holdsOpening_brace_eq_false_iff_meets]
    rcases hplace.opening_cases with ⟨text', after', rfl, hsome⟩ | ⟨rfl, hnone⟩
    · obtain ⟨hparts, hopening⟩ := (verbText?_eq_some_iff_of_splitFirstSeq hclosing).1 hsome
      cases hparts
      exact ⟨iff_of_true rfl hopening, fun h => absurd rfl h⟩
    · refine ⟨iff_of_false nofun fun hopening => ?_, fun _ => rfl⟩
      have hsome := (verbText?_eq_some_iff_of_splitFirstSeq hclosing).2 ⟨rfl, hopening⟩
      cases hnone.symm.trans hsome
  · rcases hplace.opening_cases with ⟨text', after', rfl, hsome⟩ | ⟨rfl, -⟩
    · rw [verbText?, hclosing] at hsome
      cases hsome
    · rfl

/-- An escape in the text of a verb is no opening, and opening braces behind which
    another verb opens stay alone. -/
theorem opening_begins_verb_iff_escaped :
    let escaped := "m/a:\\\x7b\x7b".toList
    let nested := "m/a:\x7b\x7bt".toList
    (meetsOpening escaped = false ∧ ¬ crowdedEscape <:+: escaped ∧
      ∃ segments, Cut (opening ++ (escaped ++ closing)) segments ∧
        segments.head? = some (.verb escaped)) ∧
    (meetsOpening nested = true ∧
      ∃ segments, Cut (opening ++ (nested ++ closing)) segments ∧
        segments.head? = some .loneOpening) := by
  intro escaped nested
  have hescaped : meetsOpening escaped = false ∧ ¬ crowdedEscape <:+: escaped :=
    holdsOpening_brace_eq_false_iff_meets.1 (by decide)
  have hnested : meetsOpening nested = true := by decide
  refine ⟨⟨hescaped.1, hescaped.2, ?_⟩, hnested, ?_⟩
  · obtain ⟨segments, hcut, -, -, hplaces⟩ :=
      opening_begins_verb_iff (opening ++ (escaped ++ closing))
    obtain ⟨segment, back, rfl, hrest⟩ := hcut.exists_opening
    obtain ⟨hverb, -⟩ := hplaces [] segment back _ rfl hrest
    exact ⟨_, hcut, congrArg some ((hverb escaped [] (by decide)).1.2 hescaped)⟩
  · obtain ⟨segments, hcut, -, -, hplaces⟩ :=
      opening_begins_verb_iff (opening ++ (nested ++ closing))
    obtain ⟨segment, back, rfl, hrest⟩ := hcut.exists_opening
    obtain ⟨hverb, -⟩ := hplaces [] segment back _ rfl hrest
    obtain ⟨hiff, hlone⟩ := hverb nested [] (by decide)
    exact ⟨_, hcut, congrArg some (hlone fun heq => by simp [hnested] at hiff; exact hiff heq)⟩

/-- The only braces in the text behind the opening are three in a row behind a
    backslash. Compiling would not meet an opening among them, and the text is that of a
    verb; but the opening stays alone, and every event is written as the rest of the
    template. -/
theorem opening_crowded :
    let source := "\x7b\x7bm/a:\\\x7b\x7b\x7bx\x7d\x7d"
    let text := ['m', '/', 'a', ':', '\\', '\x7b', '\x7b', '\x7b', 'x']
    source.toList = opening ++ (text ++ closing) ∧
    Text.splitFirstSeq closing (text ++ closing) = some (text, []) ∧
    meetsOpening text = false ∧
    Verb.read [] text = .ok (.body, .body { VerbStyle.plain with after := "\\\x7b\x7b\x7bx" }) ∧
    (∀ segments, Cut source.toList segments → segments.head? = some .loneOpening) ∧
    (Program.compile source).program.instructions =
      [.literal "\x7b\x7bm/a:\x7b\x7b\x7bx\x7d\x7d"] ∧
    (Program.compile source).diagnostics =
      [.verbDegraded "\x7b\x7b" .unterminated, .templateCompiled 1 12] ∧
    ∀ (settings : RenderSettings) (e : Event),
      (ofText source settings).encode e = "\x7b\x7bm/a:\x7b\x7b\x7bx\x7d\x7d" := by
  intro source text
  have hsource : source.toList = opening ++ (text ++ closing) := by decide
  have hnone : ∀ front back, ¬ VerbAt (text ++ closing) front back := by
    intro front back hverb
    cases verbText?_eq_some_iff.2 hverb
  have hcut : Cut source.toList [.loneOpening, .char 'm', .char '/', .char 'a', .char ':',
      .escapedOpening, .char '\x7b', .char 'x', .char '\x7d', .char '\x7d'] := by
    rw [hsource]
    refine .loneOpening hnone (.char ?_ ?_ <| .char ?_ ?_ <| .char ?_ ?_ <| .char ?_ ?_ <|
      .escapedOpening <| .char ?_ ?_ <| .char ?_ ?_ <| .char ?_ ?_ <| .char ?_ ?_ .nil)
    all_goals decide
  obtain ⟨hinstructions, hdiagnostics⟩ :=
    Program.compile_of_cut ⟨'m', by decide, by decide⟩ hcut
  have hprogram : (Program.compile source).program.instructions =
      [.literal "\x7b\x7bm/a:\x7b\x7b\x7bx\x7d\x7d"] := by
    rw [hinstructions]
    rfl
  refine ⟨hsource, by decide, by decide, rfl, fun _ h => by rw [h.unique hcut]; rfl, hprogram,
    ?_, ?_⟩
  · rw [hdiagnostics, Program.expectedSize, hprogram]
    decide
  · intro settings e
    rw [encode, ofText, Program.render, hprogram]
    exact String.append_empty

end Template

end Logbook
