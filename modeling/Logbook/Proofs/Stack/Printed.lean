import Logbook.Proofs.Stack.Located
import Mathlib.Data.List.Basic

/-!
# Reading printed backtraces

`Prints` is the layout of a printed backtrace: a line for each symbol, with its index and
perhaps a hash, behind it a line with its place, if it is known, and lines without a
meaning anywhere. The frames that are read are those of the symbols with a place
(`Prints.located_eq`), so that no symbol lends its name or its place to another one.
-/

namespace Logbook.Backtrace

/-- Sixteen hexadecimal digits. -/
def IsHash (cs : List Char) : Prop := cs.length = 16 ∧ cs.all isHexDigit = true

/-- A place in the sources. Without a column the file does not end in a colon and
    something that reads as a line. -/
structure Place where
  file : String
  line : UInt32
  column : Option UInt32
  newline_not_mem : '\n' ∉ file.toList
  unambiguous : column = none →
    ∀ front back, file.toList = front ++ ':' :: back → readNumber? back = none

/-- A symbol of a call stack, perhaps with a hash and a place. Its path has characters,
    of which none is a line feed and the last is not blank, and does not look like one
    with a hash. -/
structure Symbol where
  path : String
  hash : Option String
  place : Option Place
  path_ne : path ≠ ""
  newline_not_mem : '\n' ∉ path.toList
  last_not_blank : ∀ c ∈ path.toList.getLast?, Text.isBlank c = false
  isHash : ∀ digits ∈ hash, IsHash digits.toList
  unhashed : ∀ front back, path.toList = front ++ [':', ':', 'h'] ++ back → ¬ IsHash back

/-- The printed place: the file, the line and the column, with colons between them. -/
def Place.text (p : Place) : List Char :=
  p.file.toList ++ ':' :: Text.digits p.line.toNat ++
    p.column.elim [] fun column => ':' :: Text.digits column.toNat

/-- The line of a place behind some blanks. -/
def Place.lineText (spaces : Nat) (p : Place) : String :=
  String.ofList (List.replicate spaces ' ' ++ (['a', 't', ' '] ++ p.text))

/-- The printed symbol: its path and its hash. -/
def Symbol.text (s : Symbol) : List Char :=
  s.path.toList ++ s.hash.elim [] fun digits => [':', ':', 'h'] ++ digits.toList

/-- The line of a symbol with an index behind some blanks. -/
def Symbol.lineText (spaces index : Nat) (s : Symbol) : String :=
  String.ofList (List.replicate spaces ' ' ++ (Text.digits index ++ [':', ' '] ++ s.text))

/-- The frame of a symbol with a place. -/
def Symbol.frame? (s : Symbol) : Option Frame :=
  s.place.map fun p => ⟨s.path, p.file, p.line.toNat⟩

/-- A line that is neither that of a place nor that of a symbol: without the blanks at its
    ends it does not begin with `at` and a blank, nor with digits, a colon and a blank. -/
structure IsNoise (line : String) : Prop where
  newline_not_mem : '\n' ∉ line.toList
  not_place : ¬ ['a', 't', ' '] <+: Text.trim line.toList
  not_symbol : ∀ index rest, Text.trim line.toList = index ++ [':', ' '] ++ rest →
    index ≠ [] → index.all Char.isDigit = false

/-- The lines of a printed backtrace of the symbols. What the indices are and how many
    blanks stand before a line makes no difference. -/
inductive Prints : List Symbol → List String → Prop where
  | nil : Prints [] []
  | noise {line : String} {symbols : List Symbol} {lines : List String} :
      IsNoise line → Prints symbols lines → Prints symbols (line :: lines)
  | unplaced {s : Symbol} {symbols : List Symbol} {lines : List String} (spaces index : Nat) :
      s.place = none → Prints symbols lines →
      Prints (s :: symbols) (s.lineText spaces index :: lines)
  | placed {s : Symbol} {p : Place} {noise lines : List String} {symbols : List Symbol}
      (spaces index indent : Nat) :
      s.place = some p → (∀ line ∈ noise, IsNoise line) → Prints symbols lines →
      Prints (s :: symbols)
        (s.lineText spaces index :: noise ++ p.lineText indent :: lines)

section Lines

/-- Hexadecimal digits lie between the digits and the small letters of ASCII. -/
theorem toNat_of_isHexDigit {c : Char} (h : isHexDigit c = true) :
    48 ≤ c.toNat ∧ c.toNat ≤ 102 := by
  have hbetween : ∀ low high : Char, (low ≤ c && c ≤ high) = true →
      low.toNat ≤ c.toNat ∧ c.toNat ≤ high.toNat := by
    intro low high hc
    simpa [Char.le_def, UInt32.le_iff_toNat_le] using hc
  rw [isHexDigit, Char.isDigit, Bool.or_eq_true, Bool.or_eq_true] at h
  rcases h with (h | h) | h
  · have hc : 48 ≤ c.toNat ∧ c.toNat ≤ 57 := hbetween '0' '9' h
    omega
  · have hc : 97 ≤ c.toNat ∧ c.toNat ≤ 102 := hbetween 'a' 'f' h
    omega
  · have hc : 65 ≤ c.toNat ∧ c.toNat ≤ 70 := hbetween 'A' 'F' h
    omega

theorem not_blank_of_isHexDigit {c : Char} (h : isHexDigit c = true) : Text.isBlank c = false := by
  obtain ⟨hlow, hhigh⟩ := toNat_of_isHexDigit h
  exact Text.isBlank_eq_false (by omega) (by omega)

theorem colon_not_mem_digits (n : Nat) : ':' ∉ Text.digits n := Text.not_mem_digits rfl n

theorem IsHash.not_mem {digits : List Char} {c : Char} (h : IsHash digits)
    (hc : isHexDigit c = false) : c ∉ digits :=
  fun hmem => Bool.noConfusion (hc.symm.trans (List.all_eq_true.1 h.2 c hmem))

/-- A hash does not hold what stands before a hash. -/
theorem not_mark_infix_hash {digits : List Char} (h : IsHash digits) :
    ¬ [':', ':', 'h'] <:+: [':', 'h'] ++ digits := by
  intro hinfix
  have hcount := hinfix.sublist.count_le ':'
  rw [List.count_append, List.count_eq_zero_of_not_mem (h.not_mem (by decide))] at hcount
  exact absurd hcount (by decide)

/-- The hash behind the path of a symbol is dropped, and a path is left alone. -/
theorem dropHash_text (s : Symbol) : dropHash s.text = s.path.toList := by
  unfold dropHash Symbol.text
  cases hhash : s.hash with
  | none =>
    rw [Option.elim_none, List.append_nil]
    cases hcut : Text.splitLastSeq [':', ':', 'h'] s.path.toList with
    | none => rfl
    | some parts => exact if_neg (s.unhashed _ _ (Text.eq_append_of_splitLastSeq hcut))
  | some digits =>
    have hdigits := s.isHash digits hhash
    rw [Option.elim_some, ← List.append_assoc,
      Text.splitLastSeq_append (not_mark_infix_hash hdigits)]
    exact if_pos hdigits

/-- Behind digits no line ends in a blank. -/
theorem last_not_blank_of_digits {digits : List Char} (hne : digits ≠ [])
    (h : ∀ c ∈ digits, isHexDigit c = true) (front : List Char) :
    ∀ c ∈ (front ++ digits).getLast?, Text.isBlank c = false := by
  intro c hc
  rw [List.getLast?_append_of_ne_nil _ hne] at hc
  exact not_blank_of_isHexDigit (h c (List.mem_of_mem_getLast? hc))

theorem isHexDigit_of_mem_digits {n : Nat} {c : Char} (h : c ∈ Text.digits n) :
    isHexDigit c = true := by
  rw [isHexDigit, Text.isDigit_of_mem_digits h]
  rfl

/-- The last character of a printed symbol is not blank. -/
theorem Symbol.text_last_not_blank (s : Symbol) :
    s.text ≠ [] ∧ ∀ c ∈ s.text.getLast?, Text.isBlank c = false := by
  have hpath : s.path.toList ≠ [] := fun h => s.path_ne (String.toList_eq_nil_iff.1 h)
  unfold Symbol.text
  refine ⟨fun h => hpath (List.append_eq_nil_iff.1 h).1, ?_⟩
  cases hhash : s.hash with
  | none =>
    rw [Option.elim_none, List.append_nil]
    exact s.last_not_blank
  | some digits =>
    obtain ⟨hlength, hdigits⟩ := s.isHash digits hhash
    have hne : digits.toList ≠ [] := List.ne_nil_of_length_pos (by omega)
    rw [Option.elim_some, ← List.append_assoc]
    exact last_not_blank_of_digits hne (List.all_eq_true.1 hdigits) _

/-- The last character of a printed place is not blank. -/
theorem Place.text_last_not_blank (p : Place) :
    p.text ≠ [] ∧ ∀ c ∈ p.text.getLast?, Text.isBlank c = false := by
  have hdigits : ∀ (n : Nat) (front : List Char),
      ∀ c ∈ (front ++ Text.digits n).getLast?, Text.isBlank c = false :=
    fun n => last_not_blank_of_digits (Text.digits_ne_nil n) fun _ => isHexDigit_of_mem_digits
  unfold Place.text
  refine ⟨by simp, ?_⟩
  cases p.column with
  | none =>
    rw [Option.elim_none, List.append_nil, List.append_cons]
    exact hdigits _ _
  | some column =>
    rw [Option.elim_some, List.append_cons _ ':' (Text.digits column.toNat)]
    exact hdigits _ _

/-- Blanks before a text that is not blank at its ends are trimmed. -/
theorem trim_spaces {cs : List Char} (spaces : Nat)
    (hfirst : ∀ c ∈ cs.head?, Text.isBlank c = false)
    (hlast : ∀ c ∈ cs.getLast?, Text.isBlank c = false) :
    Text.trim (List.replicate spaces ' ' ++ cs) = cs := by
  rw [Text.trim_append_of_blank fun c hc => by rw [List.eq_of_mem_replicate hc]; decide,
    Text.trim_eq_self hfirst hlast]

/-- The first digit of a number. -/
theorem exists_digits_eq_cons (n : Nat) :
    ∃ d rest, Text.digits n = d :: rest ∧ d.isDigit = true := by
  cases hdigits : Text.digits n with
  | nil => exact absurd hdigits (Text.digits_ne_nil n)
  | cons d rest =>
    exact ⟨d, rest, rfl, Text.isDigit_of_mem_digits (hdigits ▸ List.mem_cons_self)⟩

/-- A line of a symbol says its path. -/
theorem line_symbol (s : Symbol) (spaces index : Nat) :
    Line.of (s.lineText spaces index).toList = .symbol s.path.toList := by
  obtain ⟨hne, hlast⟩ := s.text_last_not_blank
  obtain ⟨d, rest, hdigits, hd⟩ := exists_digits_eq_cons index
  have htrim : Text.trim (s.lineText spaces index).toList =
      Text.digits index ++ [':', ' '] ++ s.text := by
    rw [Symbol.lineText, String.toList_ofList]
    refine trim_spaces spaces ?_ ?_
    · rw [hdigits]
      rintro c ⟨⟩
      exact Text.isBlank_eq_false_of_isDigit hd
    · rwa [List.getLast?_append_of_ne_nil _ hne]
  have hplace : ['a', 't', ' '].isPrefixOf? (Text.digits index ++ [':', ' '] ++ s.text) = none := by
    rw [Option.eq_none_iff_forall_ne_some]
    intro after hafter
    have heq := Text.eq_append_of_isPrefixOf? hafter
    rw [hdigits] at heq
    obtain ⟨rfl, -⟩ := List.cons.inj heq
    cases hd
  have hindex : Text.digits index ≠ [] ∧ (Text.digits index).all Char.isDigit = true :=
    ⟨Text.digits_ne_nil index, Text.all_isDigit_digits index⟩
  rw [Line.of, htrim]
  simp only [hplace, Text.splitFirstSeq_append (colon_not_mem_digits index)]
  rw [if_pos hindex, dropHash_text]

/-- A line of a place says the printed place. -/
theorem line_place (p : Place) (spaces : Nat) :
    Line.of (p.lineText spaces).toList = .place p.text := by
  obtain ⟨hne, hlast⟩ := p.text_last_not_blank
  have htrim : Text.trim (p.lineText spaces).toList = ['a', 't', ' '] ++ p.text := by
    rw [Place.lineText, String.toList_ofList]
    refine trim_spaces spaces ?_ ?_
    · rintro c ⟨⟩
      decide
    · rwa [List.getLast?_append_of_ne_nil _ hne]
  rw [Line.of, htrim]
  simp only [Text.isPrefixOf?_append]

/-- A printed number of a word is read back. -/
theorem readNumber?_digits (n : UInt32) : readNumber? (Text.digits n.toNat) = some n.toNat :=
  Text.readUnsigned?_digits n.toNat_lt

/-- A printed place is read back. -/
theorem readPlace?_text (p : Place) :
    readPlace? p.text = some (p.file.toList, p.line.toNat) := by
  unfold readPlace? Place.text
  cases hcolumn : p.column with
  | some column =>
    -- the last number is the column, for the line stands before it
    rw [Option.elim_some, Text.splitLast_append (colon_not_mem_digits _)]
    simp [readNumber?_digits, Text.splitLast_append (colon_not_mem_digits _)]
  | none =>
    rw [Option.elim_none, List.append_nil, Text.splitLast_append (colon_not_mem_digits _)]
    cases hcut : Text.splitLast ':' p.file.toList with
    | none => simp [readNumber?_digits, hcut]
    | some parts =>
      have hfile := (Text.eq_append_of_splitLast hcut).1
      simp [readNumber?_digits, hcut, p.unambiguous hcolumn _ _ hfile]

theorem line_noise {line : String} (h : IsNoise line) : Line.of line.toList = .other := by
  have hplace : ['a', 't', ' '].isPrefixOf? (Text.trim line.toList) = none := by
    rw [Option.eq_none_iff_forall_ne_some]
    intro rest hrest
    exact h.not_place ⟨rest, (Text.eq_append_of_isPrefixOf? hrest).symm⟩
  rw [Line.of]
  simp only [hplace]
  split
  · next index name hcut =>
    refine if_neg fun hindex => ?_
    have hdigits := h.not_symbol index name (Text.eq_append_of_splitFirstSeq hcut) hindex.1
    rw [hindex.2] at hdigits
    cases hdigits
  · rfl

end Lines

/-- Lines that say nothing change nothing for a symbol that waits. -/
theorem located_noise {noise : List String} (h : ∀ line ∈ noise, IsNoise line)
    (waiting : Option (List Char)) (lines : List (List Char)) :
    located waiting (noise.map String.toList ++ lines) = located waiting lines := by
  induction noise with
  | nil => rfl
  | cons line noise ih =>
    rw [List.map_cons, List.cons_append, located_other (line_noise (h line List.mem_cons_self)),
      ih fun line hline => h line (List.mem_cons_of_mem _ hline)]

/-- The frame of a symbol that waits for a printed place. -/
theorem frameAt?_text (path : String) (p : Place) :
    frameAt? (some path.toList) p.text = some ⟨path, p.file, p.line.toNat⟩ := by
  simp [frameAt?, readPlace?_text]

/-- The located symbols of printed lines are those with a place, and each of them makes
    the frame of its own place, whatever waits for a place before the lines. -/
theorem Prints.located_eq {symbols : List Symbol} {lines : List String} (h : Prints symbols lines)
    (waiting : Option (List Char)) :
    located waiting (lines.map String.toList) = symbols.filterMap Symbol.frame? := by
  induction h generalizing waiting with
  | nil => rfl
  | noise hnoise _ ih => rw [List.map_cons, located_other (line_noise hnoise), ih]
  | unplaced spaces index hplace _ ih =>
    rw [List.map_cons, located_symbol (line_symbol _ _ _), ih, List.filterMap_cons, Symbol.frame?,
      hplace, Option.map_none]
  | placed spaces index indent hplace hnoise _ ih =>
    rw [List.cons_append, List.map_cons, List.map_append, List.map_cons,
      located_symbol (line_symbol _ _ _), located_noise hnoise, located_place (line_place _ _),
      frameAt?_text, ih, List.filterMap_cons, Symbol.frame?, hplace, Option.map_some]
    rfl

theorem newline_not_mem_digits (n : Nat) : '\n' ∉ Text.digits n :=
  Text.not_mem_digits rfl n

theorem Symbol.newline_not_mem_lineText (s : Symbol) (spaces index : Nat) :
    '\n' ∉ (s.lineText spaces index).toList := by
  have hhash : '\n' ∉ s.text := by
    unfold Symbol.text
    cases hhash : s.hash with
    | none => simpa using s.newline_not_mem
    | some digits =>
      have hdigits : '\n' ∉ digits.toList := (s.isHash digits hhash).not_mem (by decide)
      simpa using ⟨s.newline_not_mem, hdigits⟩
  simp [Symbol.lineText, newline_not_mem_digits, hhash]

theorem Place.newline_not_mem_lineText (p : Place) (spaces : Nat) :
    '\n' ∉ (p.lineText spaces).toList := by
  have htext : '\n' ∉ p.text := by
    unfold Place.text
    cases p.column <;> simp [p.newline_not_mem, newline_not_mem_digits]
  simp [Place.lineText, htext]

/-- No printed line holds a line feed. -/
theorem Prints.newline_not_mem {symbols : List Symbol} {lines : List String}
    (h : Prints symbols lines) : ∀ line ∈ lines, '\n' ∉ line.toList := by
  induction h with
  | nil => exact fun _ h => absurd h List.not_mem_nil
  | noise hnoise _ ih => exact List.forall_mem_cons.2 ⟨hnoise.newline_not_mem, ih⟩
  | unplaced spaces index hplace _ ih =>
    exact List.forall_mem_cons.2 ⟨Symbol.newline_not_mem_lineText _ _ _, ih⟩
  | placed spaces index indent hplace hnoise _ ih =>
    refine List.forall_mem_cons.2 ⟨Symbol.newline_not_mem_lineText _ _ _, ?_⟩
    refine List.forall_mem_append.2 ⟨fun line hline => (hnoise line hline).newline_not_mem, ?_⟩
    exact List.forall_mem_cons.2 ⟨Place.newline_not_mem_lineText _ _, ih⟩

/-- The located symbols of a printed text. -/
theorem Prints.locatedIn_eq {symbols : List Symbol} {lines : List String}
    (h : Prints symbols lines) :
    locatedIn (Text.join "\n" lines) = symbols.filterMap Symbol.frame? := by
  rw [locatedIn_join h.newline_not_mem, h.located_eq]

/-- The frame of a symbol is left out with the symbol. -/
theorem Symbol.filter_frame? (s : Symbol) :
    s.frame?.filter keeps = if !isOmitted s.path.toList then s.frame? else none := by
  unfold Symbol.frame?
  cases s.place with
  | none => simp
  | some p => simp [Option.filter_some, keeps]

/-- A short path does not look like one with a hash. -/
theorem not_isHash_of_short {path : List Char} (h : path.length < 19) (front back : List Char)
    (hpath : path = front ++ [':', ':', 'h'] ++ back) : ¬ IsHash back := by
  intro hhash
  simp only [hpath, List.length_append, hhash.1, List.length_cons, List.length_nil] at h
  omega

/-- A line that begins with neither a digit nor `at` and a blank says nothing. -/
theorem IsNoise.of_head (line : String) (hline : '\n' ∉ line.toList)
    (hplace : ¬ ['a', 't', ' '] <+: Text.trim line.toList)
    (hhead : (Text.trim line.toList).head?.any Char.isDigit = false) : IsNoise line := by
  refine ⟨hline, hplace, fun index rest htrim hne => ?_⟩
  obtain ⟨d, index, rfl⟩ := List.exists_cons_of_ne_nil hne
  have hd : d.isDigit = false := by simpa [htrim] using hhead
  rw [List.all_cons, hd, Bool.false_and]

/-- Behind a file without a colon there is no number. -/
theorem not_number_of_no_colon {file : List Char} (h : ':' ∉ file) (front back : List Char)
    (hfile : file = front ++ ':' :: back) : readNumber? back = none := by
  subst hfile
  exact absurd (List.mem_append_right _ List.mem_cons_self) h

/-- A printed backtrace is read behind given frames. Those of the symbols with a place
    are added in their order, each with the path of the symbol without its hash and with
    the file and the line of its own place, but for the symbols that are left out. -/
theorem extend_printed (given : Trace) {symbols : List Symbol} {lines : List String}
    (h : Prints symbols lines) :
    extend given (Text.join "\n" lines) =
      given ++ (symbols.filter fun s => !isOmitted s.path.toList).filterMap Symbol.frame? := by
  rw [extend_eq_filter, h.locatedIn_eq, List.filter_filterMap, List.filterMap_filter]
  simp only [Symbol.filter_frame?]

/-- The symbols of a short run: one of the runtime, one with a hash and a colon in its file,
    one without a place, and one whose place has no column. -/
def runtimeSymbols : List Symbol :=
  [⟨"core::panicking", none, some ⟨"/rustc/lib.rs", 116, some 5, by decide, nofun⟩,
      by decide, by decide, (Option.any_eq_false _ _).1 (by decide),
      nofun, not_isHash_of_short (by decide)⟩,
    ⟨"app::http::get", some "0123456789abcdef",
      some ⟨"C:\\get.rs", 12, some 9, by decide, nofun⟩,
      by decide, by decide, (Option.any_eq_false _ _).1 (by decide),
      fun _ h => Option.some.inj h ▸ ⟨by decide, by decide⟩, not_isHash_of_short (by decide)⟩,
    ⟨"_start", none, none, by decide, by decide, (Option.any_eq_false _ _).1 (by decide),
      nofun, not_isHash_of_short (by decide)⟩,
    ⟨"app::main", none,
      some ⟨"main.rs", 4, none, by decide, fun _ => not_number_of_no_colon (by decide)⟩,
      by decide, by decide, (Option.any_eq_false _ _).1 (by decide),
      nofun, not_isHash_of_short (by decide)⟩]

theorem extend_printed_runtime :
    let text := "stack backtrace:\n   0: core::panicking\n             at /rustc/lib.rs:116:5\n" ++
      "   1: app::http::get::h0123456789abcdef\n  (inlined)\n             at C:\\get.rs:12:9\n" ++
      "   2: _start\n   3: app::main\n             at main.rs:4\n"
    (∃ lines, Prints runtimeSymbols lines ∧ Text.join "\n" lines = text) ∧
    extend [⟨"app::init", "init.rs", 1⟩] text =
      [⟨"app::init", "init.rs", 1⟩, ⟨"app::http::get", "C:\\get.rs", 12⟩,
        ⟨"app::main", "main.rs", 4⟩] := by
  intro text
  obtain ⟨lines, hprints, hlines⟩ :
      ∃ lines, Prints runtimeSymbols lines ∧ Text.join "\n" lines = text :=
    ⟨_, .noise (.of_head "stack backtrace:" (by decide) (by decide) (by decide)) <|
      .placed 3 0 13 rfl (List.forall_mem_nil _) <|
      .placed 3 1 13 rfl (List.forall_mem_singleton.2 <|
        .of_head "  (inlined)" (by decide) (by decide) (by decide)) <|
      .unplaced 3 2 rfl <| .placed 3 3 13 rfl (List.forall_mem_nil _) <|
      .noise (.of_head "" (by decide) (by decide) (by decide)) .nil,
      by decide +kernel⟩
  have hframes := extend_printed [⟨"app::init", "init.rs", 1⟩] hprints
  rw [hlines] at hframes
  exact ⟨⟨lines, hprints, hlines⟩, hframes.trans (by decide)⟩

end Logbook.Backtrace
