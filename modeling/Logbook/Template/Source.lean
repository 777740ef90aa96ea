import Logbook.Template.Verb
import Logbook.Text.Blank

/-!
# Sources of templates

A template is literal text with verbs between double braces, such as `{{l/S}}`.
A backslash before two opening braces makes them literal. Compiling never fails:
two opening braces that begin no verb, and verbs that do not make sense, stay in
the literal text as they are, and a diagnostic reports each of them.
`Program.compile` goes through the template once.
-/

namespace Logbook

namespace Template

/-- Two opening braces. -/
def opening : List Char := ['\x7b', '\x7b']

/-- Two closing braces. -/
def closing : List Char := ['\x7d', '\x7d']

/-- Two opening braces, with no backslash before them, occur in the text behind
    the given character. -/
def holdsOpening : Char → List Char → Bool
  | before, '\x7b' :: '\x7b' :: rest => before != '\\' || holdsOpening '\x7b' ('\x7b' :: rest)
  | _, c :: rest => holdsOpening c rest
  | _, [] => false

/-- The text of a verb behind its opening braces, and what follows its closing
    ones. There is none where the closing braces are missing, or where a verb
    opens before them. -/
def verbText? (cs : List Char) : Option (List Char × List Char) :=
  (Text.splitFirstSeq closing cs).filter fun (text, _) => !holdsOpening '\x7b' text

/-- What compiling keeps between two steps: the instructions and the verbs so
    far, the frame layout of the caller, the literal text since the last
    instruction, and the diagnostics. -/
structure State where
  instructions : List Instruction
  seen : List Verb
  frameLayout : Option FrameLayout
  chars : List Char
  diagnostics : List Diagnostic

namespace State

/-- The state before a template. -/
def start : State := ⟨[], [], none, [], []⟩

/-- Adds literal text. -/
def keep (s : State) (chars : List Char) : State := { s with chars := s.chars ++ chars }

/-- Makes an instruction of the literal text, if there is any. -/
def flush (s : State) : State :=
  if s.chars.isEmpty then s
  else { s with instructions := s.instructions ++ [.literal (String.ofList s.chars)], chars := [] }

/-- Keeps text that is no verb, with a diagnostic. -/
def degrade (s : State) (source : List Char) (fault : VerbFault) : State :=
  { s.keep source with
    diagnostics := s.diagnostics ++ [.verbDegraded (String.ofList source) fault] }

/-- Adds what stands between two pairs of braces. -/
def verb (s : State) (text : List Char) : State :=
  match Verb.read s.seen text with
  | .error fault => s.degrade (opening ++ text ++ closing) fault
  | .ok (verb, instruction) =>
    let s := s.flush
    { s with
      instructions := s.instructions ++ [instruction]
      seen := verb :: s.seen
      frameLayout := (verb.frameLayout? text).or s.frameLayout }

end State

theorem length_le_of_verbText? {cs text after : List Char}
    (h : verbText? cs = some (text, after)) : after.length ≤ cs.length := by
  have hlen := congrArg List.length
    (Text.eq_append_of_splitFirstSeq (Option.filter_eq_some_iff.1 h).1)
  simp only [List.length_append] at hlen
  omega

/-- Goes through a template from the front. -/
def scan (s : State) : List Char → State
  | '\\' :: '\x7b' :: '\x7b' :: rest => scan (s.keep opening) rest
  | '\x7b' :: '\x7b' :: rest =>
    match _h : verbText? rest with
    | some (text, after) => scan (s.verb text) after
    | none => scan (s.degrade opening .unterminated) rest
  | c :: rest => scan (s.keep [c]) rest
  | [] => s.flush
  termination_by cs => cs.length
  decreasing_by
    all_goals simp only [List.length_cons]
    all_goals try have := length_le_of_verbText? _h
    all_goals omega

/-- The template that stands for a blank one. -/
def standardText : String :=
  "\x7b\x7bc\x7d\x7d\x7b\x7bl/S\x7d\x7d \x7b\x7bt\x7d\x7d\x7b\x7bc/reset\x7d\x7d " ++
    "\x7b\x7bm/a:\\n\x7d\x7d\x7b\x7bf/ak: = /av:, /nl:\\n\\t/enl:\\n\\t\\t/a:\\n\x7d\x7d" ++
    "\x7b\x7bs/av:,/a:\\n\x7d\x7d\x7b\x7bw/x/fmt:F (N:l)\x7d\x7d"

end Template

/-- A program with the diagnostics of its compilation. -/
structure Compiled where
  program : Program
  diagnostics : List Diagnostic

/-- Compiles a template. -/
def Program.compile (template : String) : Compiled :=
  let source := if Text.isAllBlank template.toList then Template.standardText else template
  let final := Template.scan .start source.toList
  let program : Program :=
    { instructions := fuseLiterals final.instructions
      frameLayout := final.frameLayout.getD .standard }
  { program
    diagnostics := final.diagnostics ++
      [.templateCompiled program.instructions.length program.expectedSize] }

end Logbook
