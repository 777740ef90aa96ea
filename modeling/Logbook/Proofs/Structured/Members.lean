import Logbook.Structured

/-!
# The members of a structured log line

Which names the members of a line have, in `map_fst_members`, and what stands
under each of them: `lookup_lifted` for the number and the class of an error,
`lookup_error` for its text, `lookup_fields` and `lookup_stacktrace` for the fields
and the stack trace.
-/

namespace Logbook.Structured

variable (s : Structured) (e : Event)

theorem lookup_member (name key : String) (value : Option Json) :
    (member name value).lookup key = if key = name then value else none := by
  cases value with
  | none => simp [member]
  | some v =>
    by_cases h : key = name
    · simp [member, h]
    · have hne : (key == name) = false := by simpa using h
      simp [member, List.lookup_cons, hne, h]

theorem map_fst_member (name : String) (value : Option Json) :
    ((member name value).map Prod.fst).Sublist [name] := by
  cases value <;> simp [member]

/-- Of members that may be missing, one for each of some keys, a key finds its own. -/
theorem lookup_filterMap (value? : String → Option Json) (keys : List String) (key : String) :
    (keys.filterMap fun k => (value? k).map fun v => (k, v)).lookup key =
      if key ∈ keys then value? key else none := by
  induction keys with
  | nil => rfl
  | cons k keys ih =>
    by_cases h : key = k
    · subst h
      cases hvalue : value? key with
      | none => simp [hvalue, ih]
      | some v => simp [hvalue]
    · have hne : (key == k) = false := by simpa using h
      cases hvalue : value? k with
      | none => simp [hvalue, ih, h]
      | some v => simp [hvalue, List.lookup_cons, hne, ih, h]

theorem map_fst_filterMap (value? : String → Option Json) (keys : List String) :
    ((keys.filterMap fun k => (value? k).map fun v => (k, v)).map Prod.fst).Sublist keys := by
  induction keys with
  | nil => exact .slnil
  | cons k keys ih =>
    cases hvalue : value? k with
    | none =>
      rw [List.filterMap_cons_none (by rw [hvalue]; rfl)]
      exact ih.cons k
    | some v =>
      rw [List.filterMap_cons_some (by rw [hvalue]; rfl)]
      exact ih.cons_cons k

/-- The value that is written for the number or the class of an error. -/
def liftedValue? (key : String) : Option Json :=
  (systemFieldNamed? e key).map fun f => f.value.toJson

theorem liftedMembers_eq :
    liftedMembers e = liftedKeys.filterMap fun k => (liftedValue? e k).map fun v => (k, v) := by
  unfold liftedMembers liftedValue?
  simp only [Option.map_map]
  rfl

/-- The names that come behind the first four, if they come at all. -/
def laterNames : List String := liftedKeys ++ ["error", "fields", "stacktrace"]

/-- A line begins with its four fixed members, and the others come in a fixed order. -/
theorem map_fst_members :
    ∃ later : List String,
      (s.members e).map Prod.fst = ["level", "level_value", "time", "message"] ++ later ∧
        later.Sublist laterNames := by
  refine ⟨_, by simp only [members, List.map_append, List.append_assoc]; rfl, ?_⟩
  have hlifted : ((liftedMembers e).map Prod.fst).Sublist liftedKeys := by
    rw [liftedMembers_eq]
    exact map_fst_filterMap _ liftedKeys
  exact hlifted.append
    ((map_fst_member "error" _).append
      ((map_fst_member "fields" _).append (map_fst_member "stacktrace" _)))

theorem nodup_names_members : ((s.members e).map Prod.fst).Nodup := by
  obtain ⟨later, hnames, hlater⟩ := map_fst_members s e
  rw [hnames]
  refine List.Sublist.nodup ((List.Sublist.refl _).append hlater) ?_
  decide

/-- Under the name of a number or a class of an error stands the system field of
    that name. -/
theorem lookup_lifted {key : String} (h : key ∈ liftedKeys) :
    (s.members e).lookup key = liftedValue? e key := by
  have hfixed : key ≠ "level" ∧ key ≠ "level_value" ∧ key ≠ "time" ∧ key ≠ "message" ∧
      key ≠ "error" ∧ key ≠ "fields" ∧ key ≠ "stacktrace" := by
    revert h
    simp only [liftedKeys, List.mem_cons, List.not_mem_nil, or_false]
    rintro (rfl | rfl | rfl) <;> decide
  simp only [members, List.lookup_append, liftedMembers_eq, lookup_filterMap, lookup_member,
    List.lookup_cons, List.lookup_nil, h, hfixed, beq_eq_false_iff_ne.2, ne_eq, not_false_eq_true,
    if_true, if_false, Option.none_or, Option.or_none]

theorem lookup_error :
    (s.members e).lookup "error" = (errorText? e).map .text := by
  have hlifted : "error" ∉ liftedKeys := by decide
  simp [members, List.lookup_append, liftedMembers_eq, lookup_filterMap, lookup_member,
    List.lookup_cons, hlifted]

theorem lookup_fields :
    (s.members e).lookup "fields" =
      unlessEmpty (s.listedFields e).isEmpty (fieldsJson s.layout (s.listedFields e)) := by
  have hlifted : "fields" ∉ liftedKeys := by decide
  simp [members, List.lookup_append, liftedMembers_eq, lookup_filterMap, lookup_member,
    List.lookup_cons, hlifted]

theorem lookup_stacktrace :
    (s.members e).lookup "stacktrace" = unlessEmpty e.shownTrace.isEmpty (s.traceJson e) := by
  have hlifted : "stacktrace" ∉ liftedKeys := by decide
  simp [members, List.lookup_append, liftedMembers_eq, lookup_filterMap, lookup_member,
    List.lookup_cons, hlifted]

end Logbook.Structured
