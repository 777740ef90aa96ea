import Logbook.Stack.Backtrace

/-!
# Located symbols of a backtrace

A symbol of a printed backtrace is located if a line with its place stands behind it and
before the next symbol. `locatedIn` are the frames of all located symbols of a text, with
nothing left out. `extend_eq_filter` says that reading a text leaves out those frames of
them whose symbol is to be left out, and nothing else.
-/

namespace Logbook.Backtrace

/-- The frame that a place makes of the symbol that waits for it. -/
def frameAt? (waiting : Option (List Char)) (place : List Char) : Option Frame := do
  let symbol ← waiting
  let (file, n) ← readPlace? place
  some ⟨String.ofList symbol, String.ofList file, n⟩

/-- The frames of the located symbols of some lines, behind a symbol that waits for its
    place. -/
def located : Option (List Char) → List (List Char) → Trace
  | _, [] => []
  | waiting, line :: rest =>
    match Line.of line with
    | .place text => (frameAt? waiting text).toList ++ located none rest
    | .symbol text => located (some text) rest
    | .other => located waiting rest

/-- The frames of the located symbols of a text. -/
def locatedIn (text : String) : Trace := located none (Text.lines text.toList)

/-- The frame is not one of a symbol that is left out. -/
def keeps (f : Frame) : Bool := !isOmitted f.function.toList

section Lines

variable {line : List Char} {waiting : Option (List Char)} {lines : List (List Char)}

theorem located_place {text : List Char} (h : Line.of line = .place text) :
    located waiting (line :: lines) =
      (frameAt? waiting text).toList ++ located none lines := by
  rw [located, h]

theorem located_symbol {text : List Char} (h : Line.of line = .symbol text) :
    located waiting (line :: lines) = located (some text) lines := by
  rw [located, h]

theorem located_other (h : Line.of line = .other) :
    located waiting (line :: lines) = located waiting lines := by
  rw [located, h]

/-- A line that says nothing changes nothing. -/
theorem step_other {state : State} (h : Line.of line = .other) : step state line = state := by
  rw [step, h]

/-- A place ends the wait of a symbol, and its frame comes behind the others. -/
theorem step_place {state : State} {text : List Char} (h : Line.of line = .place text) :
    step state line = ⟨none, state.frames ++ (frameAt? state.waiting text).toList⟩ := by
  obtain ⟨waiting, frames⟩ := state
  cases waiting with
  | none => simp [step, h, frameAt?]
  | some symbol => cases hplace : readPlace? text <;> simp [step, h, frameAt?, hplace]

/-- Of the symbols only one that is kept waits for a place. -/
theorem step_symbol {state : State} {text : List Char} (h : Line.of line = .symbol text) :
    step state line = ⟨(some text).filter (!isOmitted ·), state.frames⟩ := by
  rw [step, h]
  cases homitted : isOmitted text <;> simp [Option.filter_some, homitted]

end Lines

section Ends

/-- What lines say decides on the frames. -/
theorem located_cons_congr {line line' : List Char} {lines lines' : List (List Char)}
    (hline : Line.of line = Line.of line')
    (hlines : ∀ waiting, located waiting lines = located waiting lines')
    (waiting : Option (List Char)) :
    located waiting (line :: lines) = located waiting (line' :: lines') := by
  cases h : Line.of line' with
  | other => rw [located_other (hline.trans h), located_other h, hlines]
  | symbol text => rw [located_symbol (hline.trans h), located_symbol h, hlines]
  | place text => rw [located_place (hline.trans h), located_place h, hlines]

theorem line_dropCarriageReturn (line : List Char) :
    Line.of (Text.dropCarriageReturn line) = Line.of line := by
  have htrim : Text.trim (Text.dropCarriageReturn line) = Text.trim line := by
    unfold Text.dropCarriageReturn
    split
    · next h =>
      obtain ⟨front, rfl⟩ := List.getLast?_eq_some_iff.1 h
      rw [List.dropLast_concat, Text.trim_concat_of_blank (by decide)]
    · rfl
  rw [Line.of, Line.of, htrim]

theorem located_map_dropCarriageReturn (front back : List (List Char))
    (waiting : Option (List Char)) :
    located waiting (front.map Text.dropCarriageReturn ++ back) =
      located waiting (front ++ back) := by
  induction front generalizing waiting with
  | nil => rfl
  | cons line front ih => exact located_cons_congr (line_dropCarriageReturn line) ih waiting

theorem located_concat_nil (lines : List (List Char)) (waiting : Option (List Char)) :
    located waiting (lines ++ [[]]) = located waiting lines := by
  induction lines generalizing waiting with
  | nil => exact located_other rfl
  | cons line lines ih => exact located_cons_congr rfl ih waiting

/-- Carriage returns at the ends of lines make no difference, and neither does an empty
    line at the end of the text. -/
theorem located_lines (waiting : Option (List Char)) (cs : List Char) :
    located waiting (Text.lines cs) = located waiting (Text.splitAll '\n' cs) := by
  cases hlast : (Text.splitAll '\n' cs).getLast? with
  | none => exact absurd (List.getLast?_eq_none_iff.1 hlast) (Text.splitAll_ne_nil _ _)
  | some piece =>
    obtain ⟨front, hpieces⟩ := List.getLast?_eq_some_iff.1 hlast
    rw [Text.lines, hpieces]
    simp only [List.getLast?_concat, List.dropLast_concat]
    cases piece with
    | nil =>
      have hfront := located_map_dropCarriageReturn front [] waiting
      rw [List.append_nil, List.append_nil] at hfront
      rw [located_concat_nil, hfront]
    | cons c piece => exact located_map_dropCarriageReturn front _ waiting

/-- The located symbols of a text are those of its lines. -/
theorem locatedIn_join {lines : List String} (h : ∀ line ∈ lines, '\n' ∉ line.toList) :
    locatedIn (Text.join "\n" lines) = located none (lines.map String.toList) := by
  rw [locatedIn, located_lines]
  by_cases hne : lines = []
  · subst hne
    rfl
  · have hpieces := Text.splitAll_join hne h
    rw [show String.singleton '\n' = "\n" from rfl] at hpieces
    rw [hpieces]

end Ends

/-- The frame of a symbol that waits only if it is kept is that of the symbol, unless it is
    left out. -/
theorem frameAt?_filter (waiting : Option (List Char)) (place : List Char) :
    frameAt? (waiting.filter (!isOmitted ·)) place = (frameAt? waiting place).filter keeps := by
  cases waiting with
  | none => rfl
  | some symbol =>
    cases hplace : readPlace? place <;> cases homitted : isOmitted symbol <;>
      simp [frameAt?, keeps, Option.filter_some, hplace, homitted]

/-- Reading lines behind given frames adds the frames of the located symbols that are not
    left out. -/
theorem foldl_step_frames (waiting : Option (List Char)) (given : Trace)
    (lines : List (List Char)) :
    (lines.foldl step ⟨waiting.filter (!isOmitted ·), given⟩).frames =
      given ++ (located waiting lines).filter keeps := by
  induction lines generalizing waiting given with
  | nil => simp [located]
  | cons line lines ih =>
    rw [List.foldl_cons]
    cases hline : Line.of line with
    | other => rw [step_other hline, located_other hline, ih]
    | symbol text => rw [step_symbol hline, located_symbol hline, ih]
    | place text =>
      rw [step_place hline, located_place hline, frameAt?_filter, List.filter_append,
        ← List.append_assoc, ← Option.toList_filter]
      exact ih none _

/-- Reading a printed backtrace behind given frames adds the frames of its located
    symbols, in their order, but for those that are left out. -/
theorem extend_eq_filter (given : Trace) (text : String) :
    extend given text = given ++ (locatedIn text).filter keeps :=
  foldl_step_frames none given _

end Logbook.Backtrace
