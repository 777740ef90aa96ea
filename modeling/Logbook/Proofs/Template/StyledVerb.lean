import Logbook.Proofs.Template.Arguments
import Logbook.Proofs.Template.Segments

/-!
# Templates of one verb with a style

The verbs of bodies, fields, stack traces and callers have a style, which their
directives set. `ofVerb_program` says what a template of such a verb with any
written arguments compiles to, `compile_ofVerb` that directives are read as they
were written and set the style one after another, and that nothing behind an
argument that is no directive counts.
-/

namespace Logbook

/-- The text holds no brace. -/
def BraceFree (cs : List Char) : Prop := ∀ c ∈ cs, c ≠ '\x7b' ∧ c ≠ '\x7d'

-- goes along the text, where a search for an instance may find one that goes
-- through all characters there are
instance (cs : List Char) : Decidable (BraceFree cs) := List.decidableBAll _ cs

theorem BraceFree.append {front back : List Char} (hfront : BraceFree front)
    (hback : BraceFree back) : BraceFree (front ++ back) := by
  intro c hc
  rcases List.mem_append.1 hc with hc | hc
  · exact hfront c hc
  · exact hback c hc

/-- Writing an argument adds no brace. -/
theorem BraceFree.escape {cs : List Char} (h : BraceFree cs) :
    BraceFree (cs.flatMap escapeChar) := by
  have hadded : BraceFree ['\\', '/', 'n', 't'] := by decide
  intro c hc
  obtain ⟨d, hd, hc⟩ := List.mem_flatMap.1 hc
  rcases mem_escapeChar hc with rfl | hc
  · exact h c hd
  · exact hadded c hc

theorem BraceFree.writeArguments {arguments : List (List Char)}
    (h : ∀ argument ∈ arguments, BraceFree argument) : BraceFree (writeArguments arguments) := by
  intro c hc
  obtain ⟨argument, hargument, hc⟩ := List.mem_flatMap.1 hc
  rcases List.mem_cons.1 hc with rfl | hc
  · decide
  · exact (h argument hargument).escape c hc

/-- A directive under one of its names, where it may stand, with a value that holds
    no brace. -/
structure WrittenDirective (ofCaller : Bool) where
  directive : Directive
  name : String
  named : name ∈ directive.names
  fits : directive.Fits ofCaller
  braceFree : ∀ value, directive.value? = some value → BraceFree value

namespace WrittenDirective

variable {ofCaller : Bool}

def argument (w : WrittenDirective ofCaller) : List Char := w.directive.write w.name

theorem braceFree_argument (w : WrittenDirective ofCaller) : BraceFree w.argument := by
  obtain ⟨d, name, named, _, braceFree⟩ := w
  have hname : BraceFree name.toList := by
    cases d <;> simp only [Directive.names, List.mem_cons, List.not_mem_nil, or_false] at named <;>
      rcases named with rfl | rfl <;> decide
  unfold argument Directive.write Directive.argument
  cases hvalue : d.value? with
  | none => exact hname
  | some value =>
    refine hname.append ?_
    intro c hc
    rcases List.mem_cons.1 hc with rfl | hc
    · decide
    · exact braceFree value hvalue c hc

/-- Written directives are read one after another. -/
theorem readAll_append (ws : List (WrittenDirective ofCaller)) (rest : List (List Char)) :
    Directive.readAll ofCaller (ws.map argument ++ rest) =
      ws.map directive ++ Directive.readAll ofCaller rest := by
  induction ws with
  | nil => rfl
  | cons w ws ih =>
    have hread : Directive.read? ofCaller w.argument = some w.directive :=
      Directive.read?_write w.named w.fits
    rw [List.map_cons, List.cons_append, Directive.readAll, hread, ih]
    rfl

end WrittenDirective

def Verb.styled? : Verb → Option (VerbStyle → Instruction)
  | body => some .body
  | fields => some .fields
  | trace => some .trace
  | caller => some .caller
  | color | level | time => none

namespace Template

/-- The template of one verb under a name, with arguments. -/
def ofVerb (name : String) (arguments : List (List Char)) : String :=
  String.ofList (opening ++ (name.toList ++ writeArguments arguments) ++ closing)

theorem verbAt_of_braceFree {text : List Char} (h : BraceFree text) (after : List Char) :
    VerbAt (text ++ closing ++ after) text after where
  source := rfl
  first := by
    intro front back heq
    by_cases hlt : front.length < text.length
    · -- the closing braces would begin inside of the text
      have hget : (text ++ (closing ++ after))[front.length]? = some '\x7d' := by
        rw [← List.append_assoc, heq, List.append_assoc,
          List.getElem?_append_right (Nat.le_refl _), Nat.sub_self]
        rfl
      rw [List.getElem?_append_left hlt] at hget
      exact absurd rfl (h _ (List.mem_of_getElem? hget)).2
    · exact Nat.le_of_not_lt hlt
  opened := by
    rintro front back rfl
    exact absurd rfl (h '\x7b' (by simp [opening])).1

/-- Verbs one after another are cut into the verbs. -/
theorem cut_verbs {texts : List (List Char)} (h : ∀ text ∈ texts, BraceFree text) :
    Cut (texts.flatMap fun text => opening ++ text ++ closing) (texts.map .verb) := by
  induction texts with
  | nil => exact .nil
  | cons text texts ih =>
    obtain ⟨hfirst, hrest⟩ := List.forall_mem_cons.1 h
    rw [List.flatMap_cons, List.append_assoc, List.append_assoc, ← List.append_assoc text]
    exact .verb (verbAt_of_braceFree hfirst _) (ih hrest)

theorem cut_verb {text : List Char} (h : BraceFree text) :
    Cut (opening ++ text ++ closing) [.verb text] := by
  have hcut := cut_verbs (List.forall_mem_singleton.2 h)
  rwa [List.flatMap_singleton] at hcut

end Template

/-- A template of one verb compiles to the instruction of the verb. -/
theorem Program.compile_verb {text : List Char} (h : BraceFree text) {verb : Verb}
    {instruction : Instruction} (hread : Verb.read [] text = .ok (verb, instruction))
    (hliteral : ∀ s, instruction ≠ .literal s) :
    (compile (String.ofList (Template.opening ++ text ++ Template.closing))).program =
      ⟨[instruction], (verb.frameLayout? text).getD .standard⟩ := by
  have hblank : Text.isAllBlank (Template.opening ++ text ++ Template.closing) = false := rfl
  have hcut := Template.cut_verb h
  obtain ⟨segments, hsegments, hscan⟩ :=
    Template.scan_eq_foldl .start (Template.opening ++ text ++ Template.closing)
  have hscan : Template.scan .start (Template.opening ++ text ++ Template.closing) =
      ⟨[instruction], [verb], (verb.frameLayout? text).or none, [], []⟩ := by
    rw [hscan, ← hcut.unique hsegments]
    change (Template.State.verb .start text).flush = _
    simp only [Template.State.verb, Template.State.start, hread]
    rfl
  simp only [compile, String.toList_ofList, hblank, hscan, Bool.false_eq_true, if_false,
    Option.or_none]
  congr 1
  cases instruction with
  | literal s => exact absurd rfl (hliteral s)
  | _ => rfl

namespace Verb

/-- The names of the verbs are read, and hold neither slash nor brace. -/
theorem of_mem_names {name : String} {verb : Verb} (h : (name, verb) ∈ names) :
    ofName? name.toList = some verb ∧ '/' ∉ name.toList ∧ BraceFree name.toList := by
  have hall : ∀ entry ∈ names, ofName? entry.1.toList = some entry.2 ∧
      '/' ∉ entry.1.toList ∧ BraceFree entry.1.toList := by
    decide
  exact hall (name, verb) h

/-- Written arguments are read behind the name of a verb. -/
theorem ofArguments_splitName {name : List Char} (h : '/' ∉ name) (ofCaller : Bool)
    (arguments : List (List Char)) :
    (splitName (name ++ writeArguments arguments)).1 = name ∧
      Directive.ofArguments ofCaller (splitName (name ++ writeArguments arguments)).2 =
        Directive.readAll ofCaller arguments := by
  cases arguments with
  | nil =>
    have hcut : splitName (name ++ writeArguments []) = (name, none) := by
      rw [writeArguments, List.flatMap_nil, List.append_nil, splitName,
        Text.splitFirst_eq_none_iff.2 h]
    rw [hcut]
    exact ⟨rfl, rfl⟩
  | cons argument arguments =>
    have hcut : splitName (name ++ writeArguments (argument :: arguments)) =
        (name, some (argument.flatMap escapeChar ++ writeArguments arguments)) := by
      rw [writeArguments, List.flatMap_cons, List.cons_append, splitName,
        Text.splitFirst_append h]
      rfl
    rw [hcut]
    exact ⟨rfl, congrArg (Directive.readAll ofCaller) (cutArguments_write argument arguments)⟩

end Verb

/-- A template of a verb with a style has the instruction of the verb with the style
    that the arguments up to the first one that is no directive make, and for a
    caller the frame layout that they make. -/
theorem Template.ofVerb_program {name : String} {verb : Verb} {make : VerbStyle → Instruction}
    (hname : (name, verb) ∈ Verb.names) (hstyled : verb.styled? = some make)
    {arguments : List (List Char)} (hfree : ∀ argument ∈ arguments, BraceFree argument) :
    (Program.compile (ofVerb name arguments)).program =
      { instructions :=
          [make (.ofDirectives (Directive.readAll (decide (verb = .caller)) arguments))]
        frameLayout :=
          if decide (verb = .caller) then
            .ofDirectives (Directive.readAll (decide (verb = .caller)) arguments)
          else .standard } := by
  obtain ⟨hverb, hslash, hbrace⟩ := Verb.of_mem_names hname
  have hsplit := Verb.ofArguments_splitName hslash (decide (verb = .caller)) arguments
  have hinstruction :
      Verb.instruction? (Verb.splitName (name.toList ++ writeArguments arguments)).2 verb =
        some (make (.ofDirectives (Directive.readAll (decide (verb = .caller)) arguments))) := by
    rw [← hsplit.2]
    cases verb <;> cases hstyled <;> rfl
  have hread : Verb.read [] (name.toList ++ writeArguments arguments) =
      .ok (verb, make (.ofDirectives (Directive.readAll (decide (verb = .caller)) arguments))) := by
    simp only [Verb.read, hsplit.1, hverb, List.not_mem_nil, and_false, if_false, hinstruction]
  have hliteral : ∀ style s, make style ≠ .literal s := by
    intro style s
    cases verb <;> cases hstyled <;> exact Instruction.noConfusion
  rw [ofVerb, Program.compile_verb (hbrace.append (.writeArguments hfree)) hread (hliteral _)]
  congr 1
  by_cases hcaller : verb = .caller
  · rw [decide_eq_true hcaller] at hsplit ⊢
    rw [Verb.frameLayout?, if_pos hcaller, hsplit.2]
    rfl
  · rw [decide_eq_false hcaller, Verb.frameLayout?, if_neg hcaller]
    rfl

/-- The frame layout with a directive behind those that made it. -/
def FrameLayout.apply (layout : FrameLayout) (d : Directive) : FrameLayout :=
  d.frameLayout?.getD layout

theorem FrameLayout.ofDirectives_eq_foldl (directives : List Directive) :
    ofDirectives directives = directives.foldl apply standard := by
  suffices h : ∀ reversed : List Directive,
      (reversed.findSome? Directive.frameLayout?).getD standard =
        reversed.foldr (fun d layout => apply layout d) standard by
    rw [ofDirectives, h, List.foldr_reverse]
  intro reversed
  induction reversed with
  | nil => rfl
  | cons d reversed ih =>
    rw [List.findSome?_cons, List.foldr_cons, ← ih, apply]
    cases d.frameLayout? <;> rfl

/-- A verb that is no caller has no directive of a frame layout. -/
theorem WrittenDirective.frameLayout?_eq_none (w : WrittenDirective false) :
    w.directive.frameLayout? = none := by
  have hfits := w.fits
  cases hd : w.directive with
  | frameLayout text =>
    rw [hd] at hfits
    cases hfits
  | _ => rfl

theorem WrittenDirective.foldl_frameLayout {ofCaller : Bool}
    (ws : List (WrittenDirective ofCaller)) :
    (if ofCaller then FrameLayout.ofDirectives (ws.map directive) else .standard) =
      (ws.map directive).foldl FrameLayout.apply .standard := by
  cases ofCaller with
  | true => exact FrameLayout.ofDirectives_eq_foldl (ws.map directive)
  | false =>
    induction ws with
    | nil => rfl
    | cons w ws ih =>
      rw [List.map_cons, List.foldl_cons, FrameLayout.apply, w.frameLayout?_eq_none]
      exact ih

namespace Directive

/-- The value of a directive that has the name. -/
def valueNamed? (name : String) (d : Directive) : Option (List Char) :=
  if name ∈ d.names then d.value? else none

/-- The value of the last directive that has the name. -/
def lastValue? (name : String) (settings : List Directive) : Option (List Char) :=
  (settings.filterMap (valueNamed? name)).getLast?

/-- The value of the last directive that has the name, as a text. -/
def lastText? (name : String) (settings : List Directive) : Option String :=
  (lastValue? name settings).map String.ofList

/-- The style whose parts have the values of the last directives of their names, or else
    are empty, missing or zero. -/
def lastStyle (settings : List Directive) : VerbStyle where
  before := (lastText? "b" settings).getD ""
  after := (lastText? "a" settings).getD ""
  beforeKey := (lastText? "bk" settings).getD ""
  afterKey := (lastText? "ak" settings).getD ""
  afterValue := (lastText? "av" settings).getD ""
  lineBreak := lastText? "nl" settings
  errorLineBreak := lastText? "enl" settings
  perLine := ((lastValue? "n" settings).map Text.digitsValue).getD 0
  hidden := settings.any fun d => "x" ∈ d.names

/-- The frame layout that the last directive of its name gives, or else the default one. -/
def lastFrameLayout (settings : List Directive) : FrameLayout :=
  FrameLayout.read ((lastValue? "fmt" settings).getD "F (N:l)".toList)

theorem lastValue?_cons (name : String) (d : Directive) (settings : List Directive) :
    lastValue? name (d :: settings) = (lastValue? name settings).or (valueNamed? name d) := by
  unfold lastValue?
  cases hvalue : valueNamed? name d with
  | none => rw [List.filterMap_cons_none hvalue, Option.or_none]
  | some value =>
    rw [List.filterMap_cons_some hvalue, List.getLast?_cons]
    cases (settings.filterMap (valueNamed? name)).getLast? <;> rfl

variable {σ β : Type} {set : σ → Directive → σ} {part : σ → β}

/-- A part that is set by the directives of one name has the value of the last of them. -/
theorem part_foldl {name : String} {read : List Char → β}
    (hset : ∀ s d, part (set s d) = ((valueNamed? name d).map read).getD (part s))
    (settings : List Directive) (s : σ) :
    part (settings.foldl set s) = ((lastValue? name settings).map read).getD (part s) := by
  induction settings generalizing s with
  | nil => rfl
  | cons d settings ih =>
    rw [List.foldl_cons, ih, hset, lastValue?_cons]
    cases lastValue? name settings <;> rfl

theorem hidden_foldl (settings : List Directive) (style : VerbStyle) :
    (settings.foldl VerbStyle.apply style).hidden =
      (style.hidden || settings.any fun d => "x" ∈ d.names) := by
  induction settings generalizing style with
  | nil => exact (Bool.or_false _).symm
  | cons d settings ih =>
    have hd : (style.apply d).hidden = (style.hidden || decide ("x" ∈ d.names)) := by
      cases d <;> simp [VerbStyle.apply, names]
    rw [List.foldl_cons, ih, hd, List.any_cons, Bool.or_assoc]

/-- Directives that set a style one after another leave the values of the last ones. -/
theorem foldl_apply_eq_lastStyle (settings : List Directive) :
    settings.foldl VerbStyle.apply .plain = lastStyle settings := by
  have hpart : ∀ {β : Type} (part : VerbStyle → β) (name : String) (read : List Char → β),
      (∀ style d, part (VerbStyle.apply style d) =
        ((valueNamed? name d).map read).getD (part style)) →
      part (settings.foldl VerbStyle.apply .plain) =
        ((lastValue? name settings).map read).getD (part .plain) :=
    fun _ _ _ hset => part_foldl hset settings .plain
  have hmissing : ∀ name, ((lastValue? name settings).map (some ∘ String.ofList)).getD none =
      lastText? name settings := by
    intro name
    rw [lastText?]
    cases lastValue? name settings <;> rfl
  apply VerbStyle.ext
  · exact hpart VerbStyle.before "b" String.ofList fun style d => by
      cases d <;> simp [VerbStyle.apply, valueNamed?, names, value?]
  · exact hpart VerbStyle.after "a" String.ofList fun style d => by
      cases d <;> simp [VerbStyle.apply, valueNamed?, names, value?]
  · exact hpart VerbStyle.beforeKey "bk" String.ofList fun style d => by
      cases d <;> simp [VerbStyle.apply, valueNamed?, names, value?]
  · exact hpart VerbStyle.afterKey "ak" String.ofList fun style d => by
      cases d <;> simp [VerbStyle.apply, valueNamed?, names, value?]
  · exact hpart VerbStyle.afterValue "av" String.ofList fun style d => by
      cases d <;> simp [VerbStyle.apply, valueNamed?, names, value?]
  · refine (hpart VerbStyle.lineBreak "nl" (some ∘ String.ofList) fun style d => ?_).trans
      (hmissing "nl")
    cases d <;> simp [VerbStyle.apply, valueNamed?, names, value?]
  · refine (hpart VerbStyle.errorLineBreak "enl" (some ∘ String.ofList) fun style d => ?_).trans
      (hmissing "enl")
    cases d <;> simp [VerbStyle.apply, valueNamed?, names, value?]
  · exact hpart VerbStyle.perLine "n" Text.digitsValue fun style d => by
      cases d <;> simp [VerbStyle.apply, valueNamed?, names, value?, Text.digitsValue_digits]
  · rw [hidden_foldl]
    exact Bool.false_or _

theorem foldl_apply_eq_lastFrameLayout (settings : List Directive) :
    settings.foldl FrameLayout.apply .standard = lastFrameLayout settings := by
  have hset : ∀ (layout : FrameLayout) (d : Directive),
      id (layout.apply d) = ((valueNamed? "fmt" d).map FrameLayout.read).getD (id layout) := by
    intro layout d
    cases d <;> simp [FrameLayout.apply, frameLayout?, valueNamed?, names, value?]
  refine (part_foldl hset settings .standard).trans ?_
  rw [lastFrameLayout]
  cases lastValue? "fmt" settings <;> rfl

end Directive

/-- Written directives make the style and the frame layout, where nothing is read behind
    them. -/
theorem Program.compile_written {name : String} {verb : Verb} {make : VerbStyle → Instruction}
    (hname : (name, verb) ∈ Verb.names) (hstyled : verb.styled? = some make)
    (ws : List (WrittenDirective (decide (verb = .caller)))) {rest : List (List Char)}
    (hrest : Directive.readAll (decide (verb = .caller)) rest = [])
    (hfree : ∀ argument ∈ rest, BraceFree argument) :
    (compile (Template.ofVerb name (ws.map (·.argument) ++ rest))).program =
      { instructions := [make (Directive.lastStyle (ws.map (·.directive)))]
        frameLayout := Directive.lastFrameLayout (ws.map (·.directive)) } := by
  have hall : ∀ argument ∈ ws.map (·.argument) ++ rest, BraceFree argument := by
    intro argument hargument
    rcases List.mem_append.1 hargument with hargument | hargument
    · obtain ⟨w, _, rfl⟩ := List.mem_map.1 hargument
      exact w.braceFree_argument
    · exact hfree argument hargument
  have hread : Directive.readAll (decide (verb = .caller)) (ws.map (·.argument) ++ rest) =
      ws.map (·.directive) := by
    rw [WrittenDirective.readAll_append, hrest, List.append_nil]
  have hlayout := (WrittenDirective.foldl_frameLayout ws).trans
    (Directive.foldl_apply_eq_lastFrameLayout _)
  rw [Template.ofVerb_program hname hstyled hall, hread, ← Directive.foldl_apply_eq_lastStyle]
  exact congrArg (Program.mk _) hlayout

/-- A template of a verb with a style compiles to one instruction, whose style has for every
    name the value of the last directive of that name, and so has the frame layout of the
    program. What no directive sets is empty, missing or zero, and the frame layout is the
    default one. Neither an argument that is no directive nor what follows it counts. -/
theorem Program.compile_ofVerb {name : String} {verb : Verb} {make : VerbStyle → Instruction}
    (hname : (name, verb) ∈ Verb.names) (hstyled : verb.styled? = some make)
    (ws : List (WrittenDirective (decide (verb = .caller)))) :
    let settings := ws.map (·.directive)
    let program := (compile (Template.ofVerb name (ws.map (·.argument)))).program
    program.instructions = [make (Directive.lastStyle settings)] ∧
      program.frameLayout = Directive.lastFrameLayout settings ∧
      ∀ bad rest, Directive.Unrecognised (decide (verb = .caller)) bad → BraceFree bad →
        (∀ argument ∈ rest, BraceFree argument) →
        (compile (Template.ofVerb name (ws.map (·.argument) ++ bad :: rest))).program =
          program := by
  intro settings program
  have hprogram : program = ⟨[make (Directive.lastStyle settings)],
      Directive.lastFrameLayout settings⟩ := by
    have hwritten := compile_written hname hstyled ws (rfl : Directive.readAll _ [] = [])
      (fun _ h => absurd h List.not_mem_nil)
    rwa [List.append_nil] at hwritten
  refine ⟨by rw [hprogram], by rw [hprogram], ?_⟩
  intro bad rest hbad hfree hrest
  -- reading ends at the argument that is no directive
  have hnone : Directive.readAll (decide (verb = .caller)) (bad :: rest) = [] := by
    rw [Directive.readAll, Directive.read?_eq_none_of_unrecognised hbad]
  rw [hprogram]
  refine compile_written hname hstyled ws hnone ?_
  intro argument hargument
  rcases List.mem_cons.1 hargument with rfl | hargument
  · exact hfree
  · exact hrest argument hargument

/-- A caller whose text before it and whose frame layout are set twice, with a slash, a
    backslash and a colon in a value, a number and a line break, and arguments that are not
    read. -/
theorem Program.compile_ofVerb_caller :
    ("who", Verb.caller) ∈ Verb.names ∧ Verb.caller.styled? = some .caller ∧
      (compile ("\x7b\x7bwho/b:x/before:\\/\\\\:/n:3/nl:\\n" ++
          "/fmt:n/format:l p/hide/x:/a:y\x7d\x7d")).program =
        ⟨[.caller ⟨"/\\:", "", "", "", "", some "\n", none, 3, true⟩],
          [.line, .literal [' '], .package]⟩ := by
  have hname : ("who", Verb.caller) ∈ Verb.names := by decide
  have hfree : ∀ value ∈ [['x'], ['/', '\\', ':'], ['3'], ['\n'], ['n'], ['l', ' ', 'p'],
      ['x', ':'], ['a', ':', 'y']], BraceFree value := by
    decide
  have hcount : 3 < UInt64.size := by decide
  have hbad : Directive.Unrecognised true ['x', ':'] := .superfluousValue (by decide : "x" ∈ _)
  obtain ⟨hinstructions, hlayout, hrest⟩ := compile_ofVerb hname rfl
    [⟨.before "x", "b", by decide, trivial, by rintro _ ⟨⟩; exact hfree _ (by decide)⟩,
      ⟨.before "/\\:", "before", by decide, trivial, by rintro _ ⟨⟩; exact hfree _ (by decide)⟩,
      ⟨.perLine 3, "n", by decide, hcount, by rintro _ ⟨⟩; exact hfree _ (by decide)⟩,
      ⟨.lineBreak "\n", "nl", by decide, trivial, by rintro _ ⟨⟩; exact hfree _ (by decide)⟩,
      ⟨.frameLayout "n", "fmt", by decide, rfl, by rintro _ ⟨⟩; exact hfree _ (by decide)⟩,
      ⟨.frameLayout "l p", "format", by decide, rfl, by rintro _ ⟨⟩; exact hfree _ (by decide)⟩,
      ⟨.hide, "hide", by decide, rfl, by rintro _ ⟨⟩⟩]
  have hprogram := hrest ['x', ':'] [['a', ':', 'y']] hbad (hfree _ (by decide))
    (fun argument h => hfree argument (by grind))
  have htext : Template.ofVerb "who" ([Directive.write "b" (.before "x"),
      Directive.write "before" (.before "/\\:"), Directive.write "n" (.perLine 3),
      Directive.write "nl" (.lineBreak "\n"), Directive.write "fmt" (.frameLayout "n"),
      Directive.write "format" (.frameLayout "l p"), Directive.write "hide" .hide] ++
        [['x', ':'], ['a', ':', 'y']]) =
      "\x7b\x7bwho/b:x/before:\\/\\\\:/n:3/nl:\\n" ++
        "/fmt:n/format:l p/hide/x:/a:y\x7d\x7d" := by
    decide
  have hstyle : Directive.lastStyle [.before "x", .before "/\\:", .perLine 3, .lineBreak "\n",
      .frameLayout "n", .frameLayout "l p", .hide] =
        ⟨"/\\:", "", "", "", "", some "\n", none, 3, true⟩ := by
    decide
  have hframe : Directive.lastFrameLayout [.before "x", .before "/\\:", .perLine 3,
      .lineBreak "\n", .frameLayout "n", .frameLayout "l p", .hide] =
        [.line, .literal [' '], .package] := by
    decide
  rw [← htext, ← hstyle, ← hframe]
  refine ⟨hname, rfl, Eq.trans hprogram ?_⟩
  exact congr (congrArg Program.mk hinstructions) hlayout

end Logbook
