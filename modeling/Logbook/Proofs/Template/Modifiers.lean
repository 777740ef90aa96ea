import Mathlib.Data.List.Forall2
import Logbook.Proofs.Template.Palette
import Logbook.Template.ColorTable

/-!
# Lists of modifiers

A list of modifiers is compiled as a whole or not at all: `compile_eq_ok_iff` and
`compile_eq_error_iff` tell the result from the modifiers alone. The numbers of a
modifier fit an octet (`Modifier.codes_le`), and neither the case of its letters nor
blanks around it make a difference (`Modifier.read?_respelled`).
-/

namespace Logbook

/-- The second text is the first one with letters in another case and blanks around it. -/
def Respells (cs ds : List Char) : Prop :=
  ∃ front core back, ds = front ++ core ++ back ∧ Text.isAllBlank front = true ∧
    Text.isAllBlank back = true ∧ core.map Char.toLower = cs.map Char.toLower

theorem Respells.trim_eq {cs ds : List Char} (h : Respells cs ds) :
    (Text.trim ds).map Char.toLower = (Text.trim cs).map Char.toLower := by
  obtain ⟨front, core, back, rfl, hfront, hback, hcore⟩ := h
  rw [Text.trim_append_blank (List.all_eq_true.1 hback),
    Text.trim_append_of_blank (List.all_eq_true.1 hfront), Text.map_toLower_trim,
    Text.map_toLower_trim, hcore]

/-- The index of a color that is read is one of the palette. -/
theorem Color.index_le {cs : List Char} {index : Nat} (h : read? cs = some (.indexed index)) :
    index ≤ 255 := by
  have hnearest : ∀ rgb : Option Palette.Rgb, rgb.map nearest = some (.indexed index) →
      index ≤ 255 := by
    intro rgb hrgb
    obtain ⟨color, -, hcolor⟩ := Option.map_eq_some_iff.1 hrgb
    cases hcolor
    exact Palette.nearestEntry_le color
  unfold read? at h
  by_cases hstandard : cs = ['-', '1']
  · rw [if_pos hstandard] at h
    cases h
  rw [if_neg hstandard] at h
  by_cases hhex : cs.head? = some '#'
  · rw [if_pos hhex] at h
    exact hnearest _ h
  rw [if_neg hhex] at h
  split at h
  · exact hnearest _ h
  by_cases hcomma : ',' ∈ cs
  · rw [if_pos hcomma] at h
    exact hnearest _ h
  rw [if_neg hcomma] at h
  split at h
  · next n _ =>
    split at h
    · next hn =>
      cases h
      exact Nat.le_of_lt_succ hn
    · cases h
  · obtain ⟨_, hname, heq⟩ := Option.map_eq_some_iff.1 h
    cases heq
    have hlt : index < Palette.names.length := (List.findIdx?_eq_some_iff_getElem.1 hname).1
    have hnames : Palette.names.length = 16 := rfl
    omega

namespace Modifier

theorem read?_respelled {cs ds : List Char} (h : Respells cs ds) : read? ds = read? cs := by
  unfold read?
  rw [h.trim_eq]

/-- A modifier that is read has a name of its own, or a color that is read. -/
theorem read?_cases {cs : List Char} {m : Modifier} (h : read? cs = some m) :
    (∃ name, (name, m) ∈ plain) ∨
      ∃ spec color, Color.read? spec = some color ∧
        (m = foreground color ∨ m = background color) := by
  simp only [read?] at h
  split at h
  · next modifier hlookup =>
    cases h
    obtain ⟨front, back, hplain, -⟩ := List.lookup_eq_some_iff.1 hlookup
    exact .inl ⟨_, hplain ▸ List.mem_append_right front List.mem_cons_self⟩
  · split at h
    · obtain ⟨color, hcolor, rfl⟩ := Option.map_eq_some_iff.1 h
      exact .inr ⟨_, color, hcolor, .inl rfl⟩
    · obtain ⟨color, hcolor, rfl⟩ := Option.map_eq_some_iff.1 h
      exact .inr ⟨_, color, hcolor, .inr rfl⟩
    · cases h

theorem codes_ne_nil (m : Modifier) : m.codes ≠ [] := by
  cases m with
  | foreground color => cases color <;> exact List.cons_ne_nil _ _
  | background color => cases color <;> exact List.cons_ne_nil _ _
  | _ => exact List.cons_ne_nil _ _

/-- No more than octets gets into a control sequence. -/
theorem codes_le {cs : List Char} {m : Modifier} (h : read? cs = some m) :
    ∀ n ∈ m.codes, n ≤ 255 := by
  rcases read?_cases h with ⟨name, hplain⟩ | ⟨spec, color, hcolor, hm⟩
  · have hall : ∀ entry ∈ plain, ∀ n ∈ entry.2.codes, n ≤ 255 := by decide
    exact hall (name, m) hplain
  · cases color with
    | standard => rcases hm with rfl | rfl <;> simp [codes]
    | indexed index =>
      have hindex := Color.index_le hcolor
      rcases hm with rfl | rfl <;> simp [codes, hindex]

end Modifier

namespace Color

/-- The numbers of a control sequence as they are written. -/
def parameters (codes : List Nat) : String :=
  Text.join ";" (codes.map fun n => String.ofList (Text.digits n))

theorem sequence_eq (codes : List Nat) : sequence codes = "\x1b[" ++ parameters codes ++ "m" := rfl

theorem parameters_flatten {runs : List (List Nat)} (h : ∀ run ∈ runs, run ≠ []) :
    parameters runs.flatten = Text.join ";" (runs.map parameters) := by
  have hruns : ∀ run ∈ runs.map (List.map fun n => String.ofList (Text.digits n)), run ≠ [] := by
    simpa using h
  rw [parameters, List.map_flatten, ← Text.join_map_join ";" hruns, List.map_map]
  rfl

theorem readModifiers_eq_ok_iff {tokens : List (List Char)} {modifiers : List Modifier} :
    readModifiers tokens = .ok modifiers ↔ tokens.map Modifier.read? = modifiers.map some := by
  induction tokens generalizing modifiers with
  | nil =>
    cases modifiers with
    | nil => exact iff_of_true rfl rfl
    | cons m rest => exact iff_of_false nofun nofun
  | cons t rest ih =>
    cases hread : Modifier.read? t with
    | none =>
      simp only [readModifiers, hread, List.map_cons]
      cases modifiers <;> simp
    | some m =>
      simp only [readModifiers, hread, List.map_cons]
      cases hrest : readModifiers rest with
      | error e =>
        refine iff_of_false nofun fun h => ?_
        cases modifiers with
        | nil => cases h
        | cons m' modifiers =>
          rw [ih.2 (List.cons.inj h).2] at hrest
          cases hrest
      | ok read =>
        cases modifiers with
        | nil => exact iff_of_false nofun nofun
        | cons m' modifiers =>
          have hih : readModifiers rest = .ok modifiers ↔
              rest.map Modifier.read? = modifiers.map some := ih
          rw [hrest, Except.ok.injEq] at hih
          rw [List.map_cons, List.cons.injEq, Option.some_inj, ← hih]
          constructor
          · intro h
            cases h
            exact ⟨rfl, rfl⟩
          · rintro ⟨rfl, rfl⟩
            rfl

/-- Reading ends at the first text that is no modifier. -/
theorem readModifiers_eq_error_iff {tokens : List (List Char)} {e : ColorError} :
    readModifiers tokens = .error e ↔
      ∃ front t back, tokens = front ++ t :: back ∧ (∀ u ∈ front, Modifier.read? u ≠ none) ∧
        Modifier.read? t = none ∧ e = ⟨String.ofList t⟩ := by
  induction tokens with
  | nil =>
    refine iff_of_false nofun ?_
    rintro ⟨front, t, back, htokens, -⟩
    exact absurd htokens.symm (List.append_ne_nil_of_right_ne_nil front (List.cons_ne_nil t back))
  | cons u rest ih =>
    cases hread : Modifier.read? u with
    | none =>
      simp only [readModifiers, hread]
      constructor
      · intro h
        cases h
        exact ⟨[], u, rest, rfl, nofun, hread, rfl⟩
      · rintro ⟨front, t, back, htokens, hfront, -, rfl⟩
        cases front with
        | nil => rw [(List.cons.inj htokens).1]
        | cons v front =>
          obtain rfl := (List.cons.inj htokens).1
          exact absurd hread (hfront u List.mem_cons_self)
    | some m =>
      have hrest : readModifiers (u :: rest) = .error e ↔ readModifiers rest = .error e := by
        simp only [readModifiers, hread]
        cases readModifiers rest with
        | error e' => exact Iff.rfl
        | ok read => exact iff_of_false nofun nofun
      rw [hrest, ih]
      constructor
      · rintro ⟨front, t, back, rfl, hfront, ht, he⟩
        refine ⟨u :: front, t, back, rfl, ?_, ht, he⟩
        intro v hv
        rcases List.mem_cons.1 hv with rfl | hv
        · rw [hread]
          exact Option.some_ne_none m
        · exact hfront v hv
      · rintro ⟨front, t, back, htokens, hfront, ht, he⟩
        cases front with
        | nil =>
          obtain rfl := (List.cons.inj htokens).1
          cases hread.symm.trans ht
        | cons v front =>
          exact ⟨front, t, back, (List.cons.inj htokens).2,
            fun w hw => hfront w (List.mem_cons_of_mem v hw), ht, he⟩

theorem compile_eq_ok_iff {tokens : List (List Char)} {result : String} :
    compile tokens = .ok result ↔
      tokens ≠ [] ∧ ∃ modifiers : List Modifier, tokens.map Modifier.read? = modifiers.map some ∧
        result = sequence (modifiers.flatMap Modifier.codes) := by
  unfold compile
  cases hread : readModifiers tokens with
  | error e =>
    refine iff_of_false nofun ?_
    rintro ⟨-, modifiers, hmodifiers, -⟩
    cases hread.symm.trans (readModifiers_eq_ok_iff.2 hmodifiers)
  | ok modifiers =>
    have hmodifiers := readModifiers_eq_ok_iff.1 hread
    cases modifiers with
    | nil =>
      refine iff_of_false nofun fun h => h.1 ?_
      exact List.map_eq_nil_iff.1 hmodifiers
    | cons m rest =>
      have hne : tokens ≠ [] := by
        rintro rfl
        cases hmodifiers
      constructor
      · intro h
        cases h
        exact ⟨hne, m :: rest, hmodifiers, rfl⟩
      · rintro ⟨-, modifiers', hmodifiers', rfl⟩
        have heq := (readModifiers_eq_ok_iff.2 hmodifiers').symm.trans hread
        cases heq
        rfl

theorem compile_eq_error_iff {tokens : List (List Char)} {e : ColorError} :
    compile tokens = .error e ↔
      (tokens = [] ∧ e = ⟨""⟩) ∨
        ∃ front t back, tokens = front ++ t :: back ∧ (∀ u ∈ front, Modifier.read? u ≠ none) ∧
          Modifier.read? t = none ∧ e = ⟨String.ofList t⟩ := by
  rw [← readModifiers_eq_error_iff]
  cases htokens : tokens with
  | nil =>
    constructor
    · intro h
      cases h
      exact .inl ⟨rfl, rfl⟩
    · rintro (⟨-, rfl⟩ | h)
      · rfl
      · cases h
  | cons t rest =>
    rw [or_iff_right (fun h => List.cons_ne_nil t rest h.1)]
    unfold compile
    cases hread : readModifiers (t :: rest) with
    | error e' =>
      constructor
      · intro h
        cases h
        rfl
      · intro h
        cases h
        rfl
    | ok modifiers =>
      refine iff_of_false ?_ nofun
      cases modifiers with
      | nil => cases readModifiers_eq_ok_iff.1 hread
      | cons m modifiers => exact nofun

/-- What a modifier makes by itself. -/
theorem compile_singleton_eq_ok_iff {t : List Char} {result : String} :
    compile [t] = .ok result ↔ ∃ m, Modifier.read? t = some m ∧ result = sequence m.codes := by
  rw [compile_eq_ok_iff]
  constructor
  · rintro ⟨-, modifiers, hmodifiers, rfl⟩
    obtain ⟨m, rfl, hm⟩ := List.map_eq_singleton_iff.1 hmodifiers.symm
    exact ⟨m, hm.symm, by rw [List.flatMap_singleton]⟩
  · rintro ⟨m, hm, rfl⟩
    exact ⟨List.cons_ne_nil t [], [m], congrArg (· :: []) hm, by rw [List.flatMap_singleton]⟩

theorem exists_compile_singleton_iff {t : List Char} :
    (∃ own, compile [t] = .ok own) ↔ Modifier.read? t ≠ none := by
  simp only [compile_singleton_eq_ok_iff, Option.ne_none_iff_exists']
  constructor
  · rintro ⟨own, m, hm, -⟩
    exact ⟨m, hm⟩
  · rintro ⟨m, hm⟩
    exact ⟨sequence m.codes, m, hm, rfl⟩

theorem compile_singleton_eq_error_iff {t : List Char} {e : ColorError} :
    compile [t] = .error e ↔ Modifier.read? t = none ∧ e = ⟨String.ofList t⟩ := by
  rw [compile_eq_error_iff, or_iff_right (fun h => List.cons_ne_nil t [] h.1)]
  constructor
  · rintro ⟨front, u, back, htokens, -, hread, he⟩
    cases front with
    | nil =>
      obtain rfl := (List.cons.inj htokens).1
      exact ⟨hread, he⟩
    | cons v front =>
      exact absurd (List.cons.inj htokens).2.symm
        (List.append_ne_nil_of_right_ne_nil front (List.cons_ne_nil u back))
  · rintro ⟨hread, he⟩
    exact ⟨[], t, [], rfl, nofun, hread, he⟩

theorem exists_compile_iff {tokens : List (List Char)} :
    (∃ result, compile tokens = .ok result) ↔
      tokens ≠ [] ∧ ∀ t ∈ tokens, ∃ own, compile [t] = .ok own := by
  simp only [exists_compile_singleton_iff]
  constructor
  · rintro ⟨result, hresult⟩
    obtain ⟨hne, modifiers, hmodifiers, -⟩ := compile_eq_ok_iff.1 hresult
    refine ⟨hne, fun t ht hnone => ?_⟩
    have hmem : none ∈ tokens.map Modifier.read? := hnone ▸ List.mem_map_of_mem ht
    rw [hmodifiers] at hmem
    simp at hmem
  · rintro ⟨hne, hall⟩
    cases hcompile : compile tokens with
    | ok result => exact ⟨result, rfl⟩
    | error e =>
      rcases compile_eq_error_iff.1 hcompile with ⟨hnil, -⟩ | ⟨front, t, back, rfl, -, hnone, -⟩
      · exact absurd hnil hne
      · exact absurd hnone (hall t (by simp))

/-- The numbers of a compiled list are those of its modifiers. -/
theorem exists_codes_of_compile {tokens : List (List Char)} {result : String}
    (h : compile tokens = .ok result) :
    ∃ own : List (List Nat),
      List.Forall₂ (fun t codes => compile [t] = .ok (sequence codes)) tokens own ∧
        (∀ codes ∈ own, codes ≠ [] ∧ ∀ n ∈ codes, n ≤ 255) ∧ result = sequence own.flatten := by
  obtain ⟨-, modifiers, hmodifiers, rfl⟩ := compile_eq_ok_iff.1 h
  refine ⟨modifiers.map Modifier.codes, ?_, ?_, by rw [← List.flatMap_def]⟩
  · clear h
    induction tokens generalizing modifiers with
    | nil =>
      obtain rfl := List.map_eq_nil_iff.1 hmodifiers.symm
      exact .nil
    | cons t rest ih =>
      cases modifiers with
      | nil => cases hmodifiers
      | cons m modifiers =>
        obtain ⟨hm, hrest⟩ := List.cons.inj hmodifiers
        exact .cons (compile_singleton_eq_ok_iff.2 ⟨m, hm, rfl⟩) (ih modifiers hrest)
  · intro codes hcodes
    obtain ⟨m, hm, rfl⟩ := List.mem_map.1 hcodes
    have hmem : some m ∈ tokens.map Modifier.read? := hmodifiers ▸ List.mem_map_of_mem hm
    obtain ⟨t, -, hread⟩ := List.mem_map.1 hmem
    exact ⟨m.codes_ne_nil, Modifier.codes_le hread⟩

/-- The error of a list is the error of the first modifier that makes one by itself. -/
theorem compile_eq_error_iff_first {tokens : List (List Char)} {e : ColorError} :
    compile tokens = .error e ↔
      (tokens = [] ∧ e.token = "") ∨
        ∃ front t back, tokens = front ++ t :: back ∧ (∀ u ∈ front, ∃ own, compile [u] = .ok own) ∧
          compile [t] = .error e ∧ e.token = String.ofList t := by
  obtain ⟨token⟩ := e
  rw [compile_eq_error_iff]
  simp only [exists_compile_singleton_iff, compile_singleton_eq_error_iff, ColorError.mk.injEq,
    and_assoc, and_self]

theorem compile_respelled {tokens respelled : List (List Char)}
    (h : List.Forall₂ Respells tokens respelled) :
    (compile respelled).toOption = (compile tokens).toOption := by
  have hread : respelled.map Modifier.read? = tokens.map Modifier.read? := by
    induction h with
    | nil => rfl
    | cons hfirst _ ih => rw [List.map_cons, List.map_cons, Modifier.read?_respelled hfirst, ih]
  have hne : respelled ≠ [] ↔ tokens ≠ [] := by
    cases h <;> simp
  have hok : ∀ result, compile respelled = .ok result ↔ compile tokens = .ok result := by
    intro result
    rw [compile_eq_ok_iff, compile_eq_ok_iff, hread, hne]
  cases htokens : compile tokens with
  | ok result => rw [(hok result).2 htokens]
  | error e =>
    cases hrespelled : compile respelled with
    | ok result => cases htokens.symm.trans ((hok result).1 hrespelled)
    | error e' => rfl

end Color

end Logbook
