import Logbook.Proofs.Template.Spelling

/-!
# Written arguments

How arguments are written behind the name of a verb, and that they are read back:
`writeArguments` puts a slash before each of them and a backslash before what would
be taken for something else, and `cutArguments_write` cuts the text again.
`Directive.write` gives the text of a directive, `read?_write` reads it, and
`Unrecognised` describes the arguments that are no directive, which are those
that `read?_eq_none_iff` says.
-/

namespace Logbook

/-- A character as it is written in an argument. -/
def escapeChar (c : Char) : List Char :=
  if c = '\\' then ['\\', '\\']
  else if c = '/' then ['\\', '/']
  else if c = '\n' then ['\\', 'n']
  else if c = '\t' then ['\\', 't']
  else [c]

theorem mem_escapeChar {c d : Char} (h : d ∈ escapeChar c) :
    d = c ∨ d ∈ ['\\', '/', 'n', 't'] := by
  grind [escapeChar]

/-- Arguments as they are written behind the name of a verb. -/
def writeArguments (arguments : List (List Char)) : List Char :=
  arguments.flatMap fun argument => '/' :: argument.flatMap escapeChar

theorem spellsChar_escapeChar (c : Char) : SpellsChar c (escapeChar c) := by
  unfold escapeChar
  by_cases hbackslash : c = '\\'
  · rw [if_pos hbackslash, hbackslash]
    exact .backslash
  by_cases hslash : c = '/'
  · rw [if_neg hbackslash, if_pos hslash, hslash]
    exact .slash
  by_cases hbreak : c = '\n'
  · rw [if_neg hbackslash, if_neg hslash, if_pos hbreak, hbreak]
    exact .lineFeed
  by_cases htab : c = '\t'
  · rw [if_neg hbackslash, if_neg hslash, if_neg hbreak, if_pos htab, htab]
    exact .tab
  · rw [if_neg hbackslash, if_neg hslash, if_neg hbreak, if_neg htab]
    exact .plain hbackslash hslash

theorem spells_escape (argument : List Char) :
    Spells argument (argument.flatMap escapeChar) := by
  induction argument with
  | nil => exact .nil
  | cons c argument ih => exact .cons (spellsChar_escapeChar c) ih

/-- Written arguments are cut at their slashes. -/
theorem cutArguments_write (argument : List Char) (arguments : List (List Char)) :
    cutArguments (argument.flatMap escapeChar ++ writeArguments arguments) =
      argument :: arguments := by
  induction arguments generalizing argument with
  | nil =>
    rw [cutArguments_spells (spells_escape argument) (writeArguments [])]
    exact congrArg (· :: []) (List.append_nil argument)
  | cons next arguments ih =>
    have hrest : cutArguments (writeArguments (next :: arguments)) = [] :: next :: arguments := by
      rw [writeArguments, List.flatMap_cons, List.cons_append, cutArguments, ← ih next]
      rfl
    rw [cutArguments_spells (spells_escape argument), hrest, extendFirst, List.append_nil]

namespace Directive

/-- The short and the long name of a directive. -/
def names : Directive → List String
  | before _ => ["b", "before"]
  | after _ => ["a", "after"]
  | beforeKey _ => ["bk", "beforekey"]
  | afterKey _ => ["ak", "afterkey"]
  | afterValue _ => ["av", "aftervalue"]
  | lineBreak _ => ["nl", "newline"]
  | errorLineBreak _ => ["enl", "errornewline"]
  | perLine _ => ["n", "perline"]
  | hide => ["x", "hide"]
  | frameLayout _ => ["fmt", "format"]

def value? : Directive → Option (List Char)
  | before text | after text | beforeKey text | afterKey text | afterValue text | lineBreak text
  | errorLineBreak text | frameLayout text => some text.toList
  | perLine count => some (Text.digits count)
  | hide => none

def argument (name : String) : Option (List Char) → List Char
  | some value => name.toList ++ ':' :: value
  | none => name.toList

/-- The directive under one of its names. -/
def write (name : String) (d : Directive) : List Char := argument name d.value?

/-- The directive may stand in the arguments of a verb: what hides a verb and the
    layout of frames only in those of a caller, and a count has to fit a word. -/
def Fits (ofCaller : Bool) : Directive → Prop
  | perLine count => count < UInt64.size
  | hide | frameLayout _ => ofCaller = true
  | _ => True

theorem colon_not_mem_names {d : Directive} {name : String} (h : name ∈ d.names) :
    ':' ∉ name.toList := by
  cases d <;> simp only [names, List.mem_cons, List.not_mem_nil, or_false] at h <;>
    rcases h with rfl | rfl <;> decide

theorem read?_argument {ofCaller : Bool} {name : String} (hcolon : ':' ∉ name.toList)
    (value : Option (List Char)) :
    read? ofCaller (argument name value) = ofName? ofCaller name value := by
  unfold read? argument
  cases value with
  | none => simp only [Text.splitFirst_eq_none_iff.2 hcolon, String.ofList_toList]
  | some value => simp only [Text.splitFirst_append hcolon, String.ofList_toList]

theorem ofName?_value {ofCaller : Bool} {d : Directive} {name : String} (hname : name ∈ d.names)
    (hfits : d.Fits ofCaller) : ofName? ofCaller name d.value? = some d := by
  cases d with
  | perLine count =>
    have hcount : Text.readUnsigned? UInt64.size (Text.digits count) = some count :=
      Text.readUnsigned?_digits hfits
    simp only [names, List.mem_cons, List.not_mem_nil, or_false] at hname
    rcases hname with rfl | rfl <;> simp [ofName?, value?, hcount]
  | _ =>
    simp only [names, List.mem_cons, List.not_mem_nil, or_false] at hname
    rcases hname with rfl | rfl <;> simp_all [ofName?, value?, Fits]

/-- What is read as a directive stands under one of its names, where it may stand. -/
theorem names_of_ofName? {ofCaller : Bool} {d : Directive} {name : String}
    {value : Option (List Char)} (h : ofName? ofCaller name value = some d) :
    name ∈ d.names ∧ d.Fits ofCaller := by
  cases value with
  | none =>
    simp only [ofName?, Bool.and_eq_true, Bool.or_eq_true, decide_eq_true_eq] at h
    split at h
    · next hcaller =>
      cases h
      exact ⟨by simpa [names] using hcaller.2, hcaller.1⟩
    · cases h
  | some value =>
    simp only [ofName?] at h
    by_cases hcount : name = "n" ∨ name = "perline"
    · have hread : (Text.readUnsigned? UInt64.size value).map perLine = some d := by
        rcases hcount with rfl | rfl <;> simpa using h
      obtain ⟨count, hcount', rfl⟩ := Option.map_eq_some_iff.1 hread
      exact ⟨by simpa [names] using hcount, Text.readUnsigned?_lt hcount'⟩
    · rw [if_neg hcount] at h
      grind [names, Fits]

/-- A written directive is read back under each of its names. -/
theorem read?_write {ofCaller : Bool} {d : Directive} {name : String} (hname : name ∈ d.names)
    (hfits : d.Fits ofCaller) : read? ofCaller (d.write name) = some d := by
  rw [write, read?_argument (colon_not_mem_names hname)]
  exact ofName?_value hname hfits

/-- A count as it may be written: digits, with or without a plus sign before them, of
    a value that fits a word. -/
def IsCount (value : List Char) : Prop :=
  ∃ digits, (value = digits ∨ value = '+' :: digits) ∧ digits ≠ [] ∧
    (∀ c ∈ digits, c.isDigit = true) ∧ Text.digitsValue digits < UInt64.size

/-- The argument is no directive: its name is none, or it lacks the value that its
    name asks for, or it has a value that its name does not, or its value is no
    count where its name asks for one. -/
inductive Unrecognised (ofCaller : Bool) : List Char → Prop where
  | unknownName {name : String} {value : Option (List Char)} :
      ':' ∉ name.toList → (∀ d : Directive, d.Fits ofCaller → name ∉ d.names) →
      Unrecognised ofCaller (argument name value)
  | missingValue {d : Directive} {name : String} :
      d.value? ≠ none → name ∈ d.names → Unrecognised ofCaller (argument name none)
  | superfluousValue {name : String} {value : List Char} :
      name ∈ hide.names → Unrecognised ofCaller (argument name (some value))
  | badCount {count : Nat} {name : String} {value : List Char} :
      name ∈ (perLine count).names → ¬ IsCount value →
      Unrecognised ofCaller (argument name (some value))

theorem readUnsigned?_eq_none_iff {value : List Char} :
    Text.readUnsigned? UInt64.size value = none ↔ ¬ IsCount value := by
  rw [IsCount, ← Text.readUnsigned?_ne_none_iff, ne_eq, Decidable.not_not]

theorem read?_eq_none_of_unrecognised {ofCaller : Bool} {cs : List Char}
    (h : Unrecognised ofCaller cs) : read? ofCaller cs = none := by
  cases h with
  | @unknownName name value hcolon hnone =>
    rw [read?_argument hcolon]
    cases hread : ofName? ofCaller name value with
    | none => rfl
    | some d =>
      obtain ⟨hname, hfits⟩ := names_of_ofName? hread
      exact absurd hname (hnone d hfits)
  | @missingValue d name hvalue hname =>
    rw [read?_argument (colon_not_mem_names hname)]
    cases d <;> simp only [names, List.mem_cons, List.not_mem_nil, or_false] at hname <;>
      rcases hname with rfl | rfl <;> simp_all [ofName?, value?]
  | @superfluousValue name value hname =>
    rw [read?_argument (colon_not_mem_names hname)]
    simp only [names, List.mem_cons, List.not_mem_nil, or_false] at hname
    rcases hname with rfl | rfl <;> simp [ofName?]
  | @badCount count name value hname hcount =>
    rw [read?_argument (colon_not_mem_names hname)]
    have hread := readUnsigned?_eq_none_iff.2 hcount
    simp only [names, List.mem_cons, List.not_mem_nil, or_false] at hname
    rcases hname with rfl | rfl <;> simp [ofName?, hread]

/-- Every argument is one of a name, and perhaps a value behind a colon. -/
theorem exists_argument (cs : List Char) :
    ∃ (name : String) (value : Option (List Char)),
      ':' ∉ name.toList ∧ cs = argument name value := by
  cases hcut : Text.splitFirst ':' cs with
  | none =>
    refine ⟨String.ofList cs, none, ?_, ?_⟩
    · rw [String.toList_ofList]
      exact Text.splitFirst_eq_none_iff.1 hcut
    · rw [argument, String.toList_ofList]
  | some parts =>
    obtain ⟨hcs, hcolon⟩ := Text.eq_append_of_splitFirst hcut
    refine ⟨String.ofList parts.1, some parts.2, ?_, ?_⟩
    · rw [String.toList_ofList]
      exact hcolon
    · rw [argument, String.toList_ofList]
      exact hcs

/-- The arguments that are not read are those that are described. -/
theorem read?_eq_none_iff {ofCaller : Bool} {cs : List Char} :
    read? ofCaller cs = none ↔ Unrecognised ofCaller cs := by
  refine ⟨?_, read?_eq_none_of_unrecognised⟩
  intro h
  obtain ⟨name, value, hcolon, rfl⟩ := exists_argument cs
  rw [read?_argument hcolon] at h
  -- under the name of a directive only the value can be wrong
  by_cases hknown : ∃ d : Directive, d.Fits ofCaller ∧ name ∈ d.names
  · obtain ⟨d, hfits, hname⟩ := hknown
    cases value with
    | none =>
      by_cases hvalue : d.value? = none
      · have hread := ofName?_value hname hfits
        rw [hvalue, h] at hread
        cases hread
      · exact .missingValue hvalue hname
    | some value =>
      cases d with
      | hide => exact .superfluousValue hname
      | perLine count =>
        refine .badCount hname ?_
        rw [← readUnsigned?_eq_none_iff]
        simp only [names, List.mem_cons, List.not_mem_nil, or_false] at hname
        rcases hname with rfl | rfl <;> simpa [ofName?] using h
      | _ =>
        simp only [names, List.mem_cons, List.not_mem_nil, or_false] at hname
        rcases hname with rfl | rfl <;> simp_all [ofName?, Fits]
  · exact .unknownName hcolon fun d hfits hname => hknown ⟨d, hfits, hname⟩

end Directive

end Logbook
