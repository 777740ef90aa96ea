import Logbook.Proofs.Stack.Located

/-!
# Frames of the library in a backtrace

The symbols of the standard library and of the records are not those of a program that
logs, and the first frame of a trace is meant to be that of the caller. Of these symbols
`omittedBeginnings` misses some (`overlooked_iff`): those behind an angle bracket, and those
of the records outside their frames. A symbol that is missed is recorded wherever it has a
place.
-/

namespace Logbook.Backtrace

/-- The beginnings of the paths of the standard library and of the records. -/
def libraryPaths : List String := ["std::", "core::", "alloc::", "record::"]

/-- The path of the symbol is one of the library, at once or behind an angle bracket. -/
def OfLibrary (symbol : List Char) : Prop :=
  ∃ path ∈ libraryPaths, path.toList <+: symbol ∨ ("<" ++ path).toList <+: symbol

/-- The beginnings of symbols of the library that do not stand among `omittedBeginnings`. -/
def overlookedBeginnings : List String := ["<std::", "<core::", "<alloc::", "record::", "<record::"]

/-- The symbol has one of these beginnings and is not one of the frames of the records. -/
def Overlooked (symbol : List Char) : Prop :=
  (∃ start ∈ overlookedBeginnings, start.toList <+: symbol) ∧
    ¬ "record::frame::".toList <+: symbol ∧ ¬ "<record::frame::".toList <+: symbol

instance (symbol : List Char) : Decidable (OfLibrary symbol) :=
  inferInstanceAs (Decidable (∃ path ∈ libraryPaths, _))

instance (symbol : List Char) : Decidable (Overlooked symbol) :=
  inferInstanceAs (Decidable ((∃ start ∈ overlookedBeginnings, _) ∧ _))

section Beginnings

variable {symbol : List Char}

/-- A symbol is left out for its beginning. -/
theorem isOmitted_iff :
    isOmitted symbol = true ↔ ∃ start ∈ omittedBeginnings, start.toList <+: symbol := by
  simp only [isOmitted, List.any_eq_true, List.isPrefixOf_iff_prefix]

theorem kept_iff :
    isOmitted symbol = false ↔ ∀ start ∈ omittedBeginnings, ¬ start.toList <+: symbol := by
  rw [← Bool.not_eq_true, isOmitted_iff]
  simp only [not_exists, not_and]

/-- A symbol with an overlooked beginning is left out only among the frames of the
    records. -/
theorem frame_of_overlooked_omitted {start omitted : String}
    (hstart : start ∈ overlookedBeginnings) (homitted : omitted ∈ omittedBeginnings)
    (hpre : start.toList <+: symbol) (hpre' : omitted.toList <+: symbol) :
    omitted = "record::frame::" ∨ omitted = "<record::frame::" := by
  -- of two beginnings of one symbol one is the beginning of the other
  have hnested : ∀ start ∈ overlookedBeginnings, ∀ omitted ∈ omittedBeginnings,
      start.toList <+: omitted.toList ∨ omitted.toList <+: start.toList →
      omitted = "record::frame::" ∨ omitted = "<record::frame::" := by decide
  exact hnested _ hstart _ homitted (List.prefix_or_prefix_of_prefix hpre hpre')

/-- The overlooked symbols are those of the library that are not left out. -/
theorem overlooked_iff : Overlooked symbol ↔ OfLibrary symbol ∧ isOmitted symbol = false := by
  rw [kept_iff]
  constructor
  · rintro ⟨⟨start, hstart, hpre⟩, hplain, hangled⟩
    have hpath : ∀ start ∈ overlookedBeginnings,
        ∃ path ∈ libraryPaths, start = path ∨ start = "<" ++ path := by decide
    refine ⟨?_, fun omitted homitted hpre' => ?_⟩
    · obtain ⟨path, hpath, rfl | rfl⟩ := hpath start hstart
      · exact ⟨_, hpath, .inl hpre⟩
      · exact ⟨_, hpath, .inr hpre⟩
    · rcases frame_of_overlooked_omitted hstart homitted hpre hpre' with rfl | rfl
      · exact hplain hpre'
      · exact hangled hpre'
  · rintro ⟨⟨path, hpath, hpre⟩, hkept⟩
    refine ⟨?_, hkept _ (by decide), hkept _ (by decide)⟩
    rcases hpre with hpre | hpre
    · have hlisted : ∀ path ∈ libraryPaths,
          path ∈ omittedBeginnings ∨ path ∈ overlookedBeginnings := by decide
      exact (hlisted path hpath).elim (absurd hpre <| hkept path ·) (⟨path, ·, hpre⟩)
    · have hlisted : ∀ path ∈ libraryPaths, "<" ++ path ∈ overlookedBeginnings := by decide
      exact ⟨"<" ++ path, hlisted path hpath, hpre⟩

end Beginnings

/-- A frame of the library is kept if its symbol is overlooked. -/
theorem keeps_iff_overlooked {f : Frame} (h : OfLibrary f.function.toList) :
    keeps f = true ↔ Overlooked f.function.toList := by
  rw [overlooked_iff, keeps, Bool.not_eq_true']
  exact ⟨fun hkept => ⟨h, hkept⟩, And.right⟩

/-- Behind frames of the library, the first frame that is kept is that of the caller if none
    of theirs is overlooked. -/
theorem head?_filter_keeps {machinery : Trace} {caller : Frame} (rest : Trace)
    (hmachinery : ∀ f ∈ machinery, OfLibrary f.function.toList)
    (hcaller : ¬ OfLibrary caller.function.toList) (hkept : keeps caller = true) :
    ((machinery ++ caller :: rest).filter keeps).head? = some caller ↔
      ∀ f ∈ machinery, ¬ Overlooked f.function.toList := by
  rw [List.head?_filter, List.find?_append, List.find?_cons_of_pos hkept]
  cases hfind : machinery.find? keeps with
  | none =>
    refine iff_of_true rfl fun f hf hover => ?_
    exact List.find?_eq_none.1 hfind f hf ((keeps_iff_overlooked (hmachinery f hf)).2 hover)
  | some f =>
    have hf := List.mem_of_find?_eq_some hfind
    have hover := (keeps_iff_overlooked (hmachinery f hf)).1 (List.find?_some hfind)
    refine iff_of_false (fun hhead => ?_) fun h => h f hf hover
    have heq : f = caller := Option.some.inj hhead
    exact hcaller (heq ▸ hmachinery f hf)

/-- Reading a backtrace adds frames of the library, those of its overlooked symbols that
    have a place and no others. Behind symbols of the library the first frame is that of
    the caller exactly if none of them is overlooked. -/
theorem library_frames (given : Trace) (text : String) :
    extend given text = given ++ frames text ∧
    (∀ f, f ∈ frames text ∧ OfLibrary f.function.toList ↔
      f ∈ locatedIn text ∧ Overlooked f.function.toList) ∧
    ((∀ f ∈ frames text, ¬ OfLibrary f.function.toList) ↔
      ∀ f ∈ locatedIn text, ¬ Overlooked f.function.toList) ∧
    ∀ machinery caller rest, locatedIn text = machinery ++ caller :: rest →
      (∀ f ∈ machinery, OfLibrary f.function.toList) →
      ¬ OfLibrary caller.function.toList → isOmitted caller.function.toList = false →
      ((frames text).head? = some caller ↔ ∀ f ∈ machinery, ¬ Overlooked f.function.toList) := by
  have hframes : frames text = (locatedIn text).filter keeps := by
    rw [frames, extend_eq_filter, List.nil_append]
  have hlibrary : ∀ f, f ∈ frames text ∧ OfLibrary f.function.toList ↔
      f ∈ locatedIn text ∧ Overlooked f.function.toList := by
    intro f
    rw [hframes, List.mem_filter, and_assoc]
    refine and_congr_right fun _ => ⟨fun ⟨hkept, hof⟩ => (keeps_iff_overlooked hof).1 hkept, ?_⟩
    intro hover
    have hof := (overlooked_iff.1 hover).1
    exact ⟨(keeps_iff_overlooked hof).2 hover, hof⟩
  refine ⟨by rw [hframes, extend_eq_filter], hlibrary, ?_, ?_⟩
  · have hnone := forall_congr' fun f => not_congr (hlibrary f)
    simpa only [not_and] using hnone
  · intro machinery caller rest hlocated hmachinery hcaller hkept
    rw [hframes, hlocated]
    exact head?_filter_keeps rest hmachinery hcaller (by rw [keeps, hkept]; rfl)

/-- Behind a capture and a call of the standard library the caller comes first. -/
theorem library_frames_left_out :
    let text := Text.join "\n"
      ["   0: <record::frame::BacktraceCapture>::capture",
        "             at ./crates/record/src/frame.rs:120:24",
        "   1: core::ops::function::FnOnce::call_once",
        "             at /rustc/function.rs:250:5",
        "   2: app::main",
        "             at ./src/main.rs:4:5"]
    (locatedIn text).map Frame.function =
      ["<record::frame::BacktraceCapture>::capture", "core::ops::function::FnOnce::call_once",
        "app::main"] ∧
    (frames text).head? = some ⟨"app::main", "./src/main.rs", 4⟩ := by
  intro text
  have hlocated : locatedIn text =
      [⟨"<record::frame::BacktraceCapture>::capture", "./crates/record/src/frame.rs", 120⟩,
        ⟨"core::ops::function::FnOnce::call_once", "/rustc/function.rs", 250⟩] ++
      [⟨"app::main", "./src/main.rs", 4⟩] := by
    rw [locatedIn_join (by simp)]
    decide +kernel
  obtain ⟨-, -, -, hfirst⟩ := library_frames [] text
  have hiff := hfirst _ _ _ hlocated (by decide) (by decide) (by decide)
  exact ⟨congrArg (List.map Frame.function) hlocated, hiff.2 (by decide)⟩

/-- The machinery of a capture runs in three parts of the records, and only the innermost
    one is left out. Its other frames are recorded, before that of the caller. -/
theorem machinery_recorded :
    let text := Text.join "\n"
      ["   0: <record::frame::BacktraceCapture as record::frame::StackCapture>::capture",
        "             at ./crates/record/src/frame.rs:120:24",
        "   1: record::record::LogRecord::capture_stack_trace",
        "             at ./crates/record/src/record.rs:110:9",
        "   2: record::error::TracedError::with_capture",
        "             at ./crates/record/src/error.rs:70:9",
        "   3: app::main",
        "             at ./src/main.rs:4:5",
        ""]
    frames text =
      [⟨"record::record::LogRecord::capture_stack_trace", "./crates/record/src/record.rs", 110⟩,
        ⟨"record::error::TracedError::with_capture", "./crates/record/src/error.rs", 70⟩,
        ⟨"app::main", "./src/main.rs", 4⟩] ∧
    (∃ f ∈ frames text, OfLibrary f.function.toList) ∧
    (frames text).head? ≠ some ⟨"app::main", "./src/main.rs", 4⟩ ∧
    ¬ OfLibrary "app::main".toList := by
  intro text
  have hframes : frames text =
      [⟨"record::record::LogRecord::capture_stack_trace", "./crates/record/src/record.rs", 110⟩,
        ⟨"record::error::TracedError::with_capture", "./crates/record/src/error.rs", 70⟩,
        ⟨"app::main", "./src/main.rs", 4⟩] := by
    rw [frames, extend_eq_filter, locatedIn_join (by simp)]
    decide +kernel
  rw [hframes]
  refine ⟨rfl, ⟨_, List.mem_cons_self, "record::", by decide, .inl (by decide)⟩, ?_, by decide⟩
  decide

end Logbook.Backtrace
