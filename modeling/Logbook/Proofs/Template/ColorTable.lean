import Logbook.Proofs.Template.Modifiers

/-!
# Histories of color tables

The entry of a level behind any steps is the sequence of the last specification that
was set for the level since it was cleared: `ColorTable.get_run_eq_some_iff`, from what
one step does. `compile_all_or_none` adds how specifications are compiled.
-/

namespace Logbook

namespace ColorTable

/-- The step leaves the entry of the level alone: it is a step for another level, or
    its specification is an error. -/
def Step.Spares (level : Level) : Step → Prop
  | .set other spec => other = level → ∃ e, Color.compileText spec = .error e
  | .clear other => other ≠ level

variable {table : ColorTable} {level : Level}

theorem apply_set_of_error {spec : String} {e : ColorError} (h : table.set level spec = .error e) :
    table.apply (.set level spec) = table := by
  rw [apply, h]

theorem set_eq_error_iff {spec : String} {e : ColorError} :
    table.set level spec = .error e ↔ Color.compileText spec = .error e := by
  unfold set
  cases Color.compileText spec with
  | error e' =>
    constructor <;>
    · intro h
      cases h
      rfl
  | ok sequence => exact iff_of_false nofun nofun

theorem set_eq_ok_iff {spec : String} {updated : ColorTable} :
    table.set level spec = .ok updated ↔
      ∃ sequence, Color.compileText spec = .ok sequence ∧
        updated = table.put level (some sequence) := by
  unfold set
  cases Color.compileText spec with
  | error e => exact iff_of_false nofun nofun
  | ok sequence =>
    constructor
    · intro h
      cases h
      exact ⟨sequence, rfl, rfl⟩
    · rintro ⟨_, h, rfl⟩
      cases h
      rfl

/-- What one step makes of an entry. -/
theorem get_apply_eq_some_iff {step : Step} {sequence : String} :
    (table.apply step).get level = some sequence ↔
      (∃ spec, step = .set level spec ∧ Color.compileText spec = .ok sequence) ∨
        (step.Spares level ∧ table.get level = some sequence) := by
  cases step with
  | clear other =>
    simp only [apply, clear, get_put, Step.Spares]
    by_cases hlevel : level = other
    · simp [hlevel]
    · simp [hlevel, Ne.symm hlevel]
  | set other spec =>
    cases hspec : Color.compileText spec with
    | error e =>
      rw [apply_set_of_error (set_eq_error_iff.2 hspec)]
      simp [Step.Spares, hspec]
    | ok made =>
      have hset : table.set other spec = .ok (table.put other (some made)) :=
        set_eq_ok_iff.2 ⟨made, hspec, rfl⟩
      simp only [apply, hset, get_put, Step.Spares]
      by_cases hlevel : level = other
      · subst hlevel
        simp [hspec]
      · simp [hlevel, Ne.symm hlevel]

/-- The last step that does not spare the entry decides what it is. -/
theorem get_run_eq_some_iff {steps : List Step} {sequence : String} :
    (table.run steps).get level = some sequence ↔
      (∃ front spec back, steps = front ++ .set level spec :: back ∧
        Color.compileText spec = .ok sequence ∧ ∀ step ∈ back, step.Spares level) ∨
      (table.get level = some sequence ∧ ∀ step ∈ steps, step.Spares level) := by
  induction steps generalizing table with
  | nil => simp [run]
  | cons step rest ih =>
    have hrun : table.run (step :: rest) = (table.apply step).run rest := rfl
    rw [hrun, ih, get_apply_eq_some_iff]
    constructor
    · rintro (⟨front, spec, back, rfl, hspec, hback⟩ | ⟨⟨spec, rfl, hspec⟩ | ⟨hstep, hget⟩, hrest⟩)
      · exact .inl ⟨step :: front, spec, back, rfl, hspec, hback⟩
      · exact .inl ⟨[], spec, rest, rfl, hspec, hrest⟩
      · exact .inr ⟨hget, List.forall_mem_cons.2 ⟨hstep, hrest⟩⟩
    · rintro (⟨front, spec, back, hsteps, hspec, hback⟩ | ⟨hget, hsteps⟩)
      · cases front with
        | nil =>
          obtain ⟨rfl, rfl⟩ := List.cons.inj hsteps
          exact .inr ⟨.inl ⟨spec, rfl, hspec⟩, hback⟩
        | cons first front =>
          exact .inl ⟨front, spec, back, (List.cons.inj hsteps).2, hspec, hback⟩
      · obtain ⟨hstep, hrest⟩ := List.forall_mem_cons.1 hsteps
        exact .inr ⟨.inr ⟨hstep, hget⟩, hrest⟩

end ColorTable

namespace Color

/-- A list of modifiers is compiled if it is not empty and each of them is by itself,
    to the numbers of all in their order, which fit octets and are all that the control
    sequence holds. Otherwise the error is that of the first modifier that makes one by
    itself, or that of no modifier. Letters in another case and blanks around modifiers
    change neither. The entry of a level in a table is the sequence of the last
    specification set for it that is no error, unless it was cleared since, and a
    specification that is an error changes no entry. -/
theorem compile_all_or_none (tokens : List (List Char)) (table : ColorTable)
    (steps : List ColorTable.Step) (level : Level) :
    ((∃ result, compile tokens = .ok result) ↔
      tokens ≠ [] ∧ ∀ t ∈ tokens, ∃ own, compile [t] = .ok own) ∧
    (∀ result, compile tokens = .ok result → ∃ own : List (List Nat),
      List.Forall₂ (fun t codes => compile [t] = .ok ("\x1b[" ++ parameters codes ++ "m"))
        tokens own ∧
      (∀ codes ∈ own, codes ≠ [] ∧ ∀ n ∈ codes, n ≤ 255) ∧
      result = "\x1b[" ++ Text.join ";" (own.map parameters) ++ "m" ∧
      result = "\x1b[" ++ parameters own.flatten ++ "m") ∧
    (∀ e, compile tokens = .error e ↔
      (tokens = [] ∧ e.token = "") ∨
        ∃ front t back, tokens = front ++ t :: back ∧ (∀ u ∈ front, ∃ own, compile [u] = .ok own) ∧
          compile [t] = .error e ∧ e.token = String.ofList t) ∧
    (∀ respelled, List.Forall₂ Respells tokens respelled →
      (compile respelled).toOption = (compile tokens).toOption) ∧
    (∀ sequence, (table.run steps).get level = some sequence ↔
      (∃ front spec back, steps = front ++ .set level spec :: back ∧
        compileText spec = .ok sequence ∧ ∀ step ∈ back, step.Spares level) ∨
      (table.get level = some sequence ∧ ∀ step ∈ steps, step.Spares level)) ∧
    ∀ spec e, table.set level spec = .error e → table.apply (.set level spec) = table := by
  refine ⟨exists_compile_iff, ?_, fun _ => compile_eq_error_iff_first, fun _ => compile_respelled,
    fun _ => ColorTable.get_run_eq_some_iff, fun _ _ => ColorTable.apply_set_of_error⟩
  intro result hresult
  obtain ⟨own, hown, hcodes, rfl⟩ := exists_codes_of_compile hresult
  refine ⟨own, hown, hcodes, ?_, rfl⟩
  rw [sequence_eq, parameters_flatten fun codes h => (hcodes codes h).1]

/-- Modifiers in capitals with blanks around them, a list whose second modifier is
    none, and an entry that is set twice and then by an error. -/
theorem compile_all_or_none_mixed :
    (compile [" BOLD\t".toList, "\u3000FG:#FF8800".toList]).toOption =
        some "\x1b[1;38;5;208m" ∧
      compile ["bold".toList, "fg:nope".toList, "none".toList] = .error ⟨"fg:nope"⟩ ∧
      (ColorTable.standard.run [.set .info "fg:red", .set .info "bold", .clear .debug,
        .set .info "mauve"]).get .info = some "\x1b[1m" := by
  have hlower : compile ["bold".toList, "fg:#ff8800".toList] = .ok "\x1b[1;38;5;208m" := by decide
  obtain ⟨-, -, -, hrespelled, hentry, -⟩ := compile_all_or_none
    ["bold".toList, "fg:#ff8800".toList] .standard
    [.set .info "fg:red", .set .info "bold", .clear .debug, .set .info "mauve"] .info
  obtain ⟨-, -, herror, -⟩ := compile_all_or_none
    ["bold".toList, "fg:nope".toList, "none".toList] .none [] .info
  have hrespells : List.Forall₂ Respells ["bold".toList, "fg:#ff8800".toList]
      [" BOLD\t".toList, "\u3000FG:#FF8800".toList] :=
    .cons ⟨[' '], "BOLD".toList, ['\t'], rfl, rfl, rfl, by decide⟩
      (.cons ⟨['\u3000'], "FG:#FF8800".toList, [], rfl, rfl, rfl, by decide⟩ .nil)
  have hbold : ∀ u ∈ ["bold".toList], ∃ own, compile [u] = .ok own := by
    intro u hu
    obtain rfl := List.mem_singleton.1 hu
    exact ⟨"\x1b[1m", by decide⟩
  have hspared : ∀ step ∈ [ColorTable.Step.clear .debug, .set .info "mauve"],
      step.Spares .info := by
    refine List.forall_mem_cons.2 ⟨?_, List.forall_mem_singleton.2 ?_⟩
    · exact (by decide : Level.debug ≠ .info)
    · exact fun _ => ⟨⟨"mauve"⟩, by decide⟩
  refine ⟨?_, (herror _).2 (.inr ⟨_, _, _, rfl, hbold, by decide, rfl⟩),
    (hentry _).2 (.inl ⟨[.set .info "fg:red"], "bold", _, rfl, by decide, hspared⟩)⟩
  rw [hrespelled _ hrespells, hlower]
  rfl

end Color

end Logbook
