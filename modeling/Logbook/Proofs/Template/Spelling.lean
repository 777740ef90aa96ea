import Logbook.Template.Verb
import Mathlib.Data.List.Forall2

/-!
# Spellings of arguments

A text has several spellings as an argument: a backslash and a slash need a backslash
before them, while a line feed and a tab may stand for themselves or be written by their
letters. `Spells` relates a text to each of its spellings, and `cutArguments_spelled` says
that spelled texts with slashes between them are cut into these texts again. The second
half of that theorem holds of every text, whether or not it is a spelling: to resolve its
backslashes is to cut it and to put the slashes back, so that a time verb reads
backslashes as the verbs with directives do.
-/

namespace Logbook

/-- The spellings of a character in an argument. -/
inductive SpellsChar : Char → List Char → Prop where
  | backslash : SpellsChar '\\' ['\\', '\\']
  | slash : SpellsChar '/' ['\\', '/']
  | lineFeed : SpellsChar '\n' ['\\', 'n']
  | tab : SpellsChar '\t' ['\\', 't']
  | plain {c : Char} : c ≠ '\\' → c ≠ '/' → SpellsChar c [c]

/-- The spellings of a text in an argument: one for each character, in their order. -/
inductive Spells : List Char → List Char → Prop where
  | nil : Spells [] []
  | cons {c : Char} {spelling text rest : List Char} :
      SpellsChar c spelling → Spells text rest → Spells (c :: text) (spelling ++ rest)

theorem extendFirst_append (front back : List Char) (texts : List (List Char)) :
    extendFirst (front ++ back) texts = extendFirst front (extendFirst back texts) := by
  cases texts <;> simp [extendFirst]

theorem extendFirst_nil {texts : List (List Char)} (h : texts ≠ []) :
    extendFirst [] texts = texts := by
  cases texts with
  | nil => exact absurd rfl h
  | cons first texts => rfl

theorem extendFirst_ne_nil (chars : List Char) (texts : List (List Char)) :
    extendFirst chars texts ≠ [] := by
  cases texts <;> exact List.cons_ne_nil _ _

/-- There is always one argument. -/
theorem cutArguments_ne_nil (cs : List Char) : cutArguments cs ≠ [] := by
  fun_cases cutArguments cs with
  | case1 | case2 => exact List.cons_ne_nil _ _
  | case3 | case4 => exact extendFirst_ne_nil _ _

theorem cutArguments_spellsChar {c : Char} {spelling : List Char} (h : SpellsChar c spelling)
    (rest : List Char) :
    cutArguments (spelling ++ rest) = extendFirst [c] (cutArguments rest) := by
  cases h with
  | backslash | slash | lineFeed | tab => rfl
  | plain hbackslash hslash =>
    rw [List.singleton_append, cutArguments]
    · exact hslash
    · exact fun _ _ h => absurd h hbackslash

theorem cutArguments_spells {text spelling : List Char} (h : Spells text spelling)
    (rest : List Char) :
    cutArguments (spelling ++ rest) = extendFirst text (cutArguments rest) := by
  induction h with
  | nil => exact (extendFirst_nil (cutArguments_ne_nil rest)).symm
  | cons hchar htext ih =>
    rw [List.append_assoc, cutArguments_spellsChar hchar, ih, ← extendFirst_append]
    rfl

/-- Spelled texts with slashes between them are cut at these slashes. -/
theorem cutArguments_intercalate {texts spellings : List (List Char)} (hne : texts ≠ [])
    (h : List.Forall₂ Spells texts spellings) :
    cutArguments (['/'].intercalate spellings) = texts := by
  induction h with
  | nil => exact absurd rfl hne
  | @cons text spelling texts spellings htext hrest ih =>
    cases hrest with
    | nil =>
      have hcut := cutArguments_spells htext []
      rw [List.append_nil] at hcut
      rw [List.intercalate_singleton, hcut, cutArguments, extendFirst, List.append_nil]
    | cons hnext hrest =>
      rw [List.intercalate_cons_cons, List.append_assoc, cutArguments_spells htext,
        List.singleton_append, cutArguments, ih (List.cons_ne_nil _ _), extendFirst,
        List.append_nil]

theorem intercalate_extendFirst (sep chars : List Char) {texts : List (List Char)}
    (h : texts ≠ []) :
    sep.intercalate (extendFirst chars texts) = chars ++ sep.intercalate texts := by
  cases texts with
  | nil => exact absurd rfl h
  | cons first texts =>
    cases texts with
    | nil => simp [extendFirst]
    | cons second texts => simp [extendFirst, List.intercalate_cons_cons]

theorem intercalate_nil_cons (sep : List Char) {texts : List (List Char)} (h : texts ≠ []) :
    sep.intercalate ([] :: texts) = sep ++ sep.intercalate texts := by
  cases texts with
  | nil => exact absurd rfl h
  | cons first texts => rw [List.intercalate_cons_cons, List.nil_append]

/-- To resolve the backslashes of a text is to cut it and to put the slashes back. -/
theorem resolveEscapes_eq_intercalate (cs : List Char) :
    resolveEscapes cs = ['/'].intercalate (cutArguments cs) := by
  fun_induction cutArguments cs with
  | case1 => rfl
  | case2 cs ih =>
    rw [intercalate_nil_cons _ (cutArguments_ne_nil cs), ← ih]
    rfl
  | case3 c cs ih =>
    rw [intercalate_extendFirst _ _ (cutArguments_ne_nil cs), ← ih]
    rfl
  | case4 c cs hslash hbackslash ih =>
    rw [intercalate_extendFirst _ _ (cutArguments_ne_nil cs), ← ih, resolveEscapes]
    · rfl
    · exact hbackslash

/-- Spelled texts are read back: those with slashes between them by cutting at the slashes,
    and every text by cutting as by resolving its backslashes, so that the argument of a
    time verb is the arguments of any other verb with the slashes between them. -/
theorem cutArguments_spelled :
    (∀ texts spellings : List (List Char), texts ≠ [] → List.Forall₂ Spells texts spellings →
      cutArguments (['/'].intercalate spellings) = texts) ∧
    ∀ cs : List Char,
      resolveEscapes cs = ['/'].intercalate (cutArguments cs) ∧
      Verb.time.instruction? (some cs) =
        some (.time (.ofArgument (some (['/'].intercalate (cutArguments cs))))) := by
  refine ⟨fun texts spellings hne h => cutArguments_intercalate hne h, fun cs => ?_⟩
  have hresolve := resolveEscapes_eq_intercalate cs
  refine ⟨hresolve, ?_⟩
  rw [Verb.instruction?, Option.map_some, hresolve]

/-- A slash and a backslash with backslashes before them, a line feed as it is, a tab by its
    letter, and a text of no characters. -/
theorem cutArguments_spelled_mixed :
    List.Forall₂ Spells [['a', '/', '\n'], [], ['\\', '\t']]
      [['a', '\\', '/', '\n'], [], ['\\', '\\', '\\', 't']] ∧
    cutArguments ['a', '\\', '/', '\n', '/', '/', '\\', '\\', '\\', 't'] =
      [['a', '/', '\n'], [], ['\\', '\t']] := by
  have hfirst : Spells ['a', '/', '\n'] ['a', '\\', '/', '\n'] :=
    .cons (.plain (by decide) (by decide)) (.cons .slash
      (.cons (.plain (by decide) (by decide)) .nil))
  have hthird : Spells ['\\', '\t'] ['\\', '\\', '\\', 't'] :=
    .cons .backslash (.cons .tab .nil)
  have hspelled : List.Forall₂ Spells [['a', '/', '\n'], [], ['\\', '\t']]
      [['a', '\\', '/', '\n'], [], ['\\', '\\', '\\', 't']] :=
    .cons hfirst (.cons .nil (.cons hthird .nil))
  exact ⟨hspelled, cutArguments_spelled.1 _ _ (by decide) hspelled⟩

end Logbook
