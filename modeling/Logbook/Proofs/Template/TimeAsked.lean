import Logbook.Template.TimeLayout

/-!
# What a time verb asks for

`Asks` says what a time verb asks for at a timestamp, by names and patterns that are spelled
out here: the default layout where the verb has no argument, a named layout by its name in
any case of letters, and a pattern by any other text. Layouts of universal time ask for
nothing where universal time has no date, and there `Stops` holds. `asks_iff` and `stops_iff`
say that the layout of an argument does the same.
-/

namespace Logbook

open Calendar (Timestamp)

/-- Universal time has a date at the timestamp: the first second of the year -9999 and the
    last one of the year 9999 are the bounds. -/
def Calendar.Timestamp.HasUniversalDate (t : Timestamp) : Prop :=
  -377705116800 ≤ t.seconds ∧ t.seconds ≤ 253402300799

instance (t : Timestamp) : Decidable t.HasUniversalDate :=
  inferInstanceAs (Decidable (_ ∧ _))

namespace Calendar

/-- An era lies in the years from its first one on, and in the four hundredth behind that,
    which begins with its last sixty days. -/
theorem Date.year_ofDayNumber {n era : Int} {dayOfEra : Nat}
    (hn : n + 719468 = era * 146097 + dayOfEra) (hday : dayOfEra < 146097) :
    era * 400 ≤ (ofDayNumber n).year ∧ (ofDayNumber n).year ≤ era * 400 + 400 ∧
      ((ofDayNumber n).year = era * 400 ↔ dayOfEra < 306) ∧
      ((ofDayNumber n).year = era * 400 + 400 ↔ 146037 ≤ dayOfEra) := by
  have hera : (n + 719468) / 146097 = era := by omega
  have hdayOfEra : ((n + 719468) % 146097).toNat = dayOfEra := by omega
  rw [ofDayNumber, hera, hdayOfEra]
  dsimp only
  generalize hyear : (dayOfEra - dayOfEra / 1460 + dayOfEra / 36524 - dayOfEra / 146096) / 365 =
    yearOfEra
  have hle : yearOfEra ≤ 399 := by omega
  have hfirst : yearOfEra = 0 ↔ dayOfEra < 365 := by omega
  have hlast : yearOfEra = 399 ↔ 145731 ≤ dayOfEra := by omega
  -- the month matters in the two outer years alone
  by_cases hyear0 : yearOfEra = 0
  · subst hyear0
    split <;> omega
  · by_cases hyear399 : yearOfEra = 399
    · subst hyear399
      split <;> omega
    · split <;> omega

theorem Date.isSupported_ofDayNumber_iff (n : Int) :
    (ofDayNumber n).isSupported = true ↔ -4371587 ≤ n ∧ n ≤ 2932896 := by
  have hn : n + 719468 = (n + 719468) / 146097 * 146097 + ((n + 719468) % 146097).toNat := by
    omega
  obtain ⟨hlow, hhigh, hfirst, hlast⟩ := year_ofDayNumber hn (by omega)
  rw [isSupported, Bool.and_eq_true, decide_eq_true_eq, decide_eq_true_eq]
  omega

theorem Timestamp.toUtc?_eq (t : Timestamp) :
    t.toUtc? = if t.HasUniversalDate then some { t with offset := 0 } else none := by
  have hdate : ({ t with offset := 0 } : Timestamp).localTime.date.isSupported = true ↔
      t.HasUniversalDate := by
    rw [localTime, Date.isSupported_ofDayNumber_iff, HasUniversalDate]
    dsimp only
    omega
  simp only [toUtc?, hdate]

end Calendar

namespace TimeLayout

/-- The pattern of the default layout. -/
def standardPattern : String :=
  "[year]-[month]-[day] [hour]:[minute]:[second].[subsecond digits:3]"

/-- The names that show the clock of the timestamp by a pattern. -/
def clockPatterns : List (String × String) :=
  [("ansic",
      "[weekday repr:short] [month repr:short] [day padding:space] " ++
        "[hour]:[minute]:[second] [year]"),
    ("rubydate",
      "[weekday repr:short] [month repr:short] [day] [hour]:[minute]:[second] " ++
        "[offset_hour sign:mandatory][offset_minute] [year]"),
    ("rfc822z",
      "[day] [month repr:short] [year repr:last_two] [hour]:[minute] " ++
        "[offset_hour sign:mandatory][offset_minute]"),
    ("rfc1123z",
      "[weekday repr:short], [day] [month repr:short] [year] [hour]:[minute]:[second] " ++
        "[offset_hour sign:mandatory][offset_minute]")]

/-- The names that show universal time by a pattern, which says so. -/
def universalPatterns : List (String × String) :=
  [("unixdate",
      "[weekday repr:short] [month repr:short] [day padding:space] " ++
        "[hour]:[minute]:[second] UTC [year]"),
    ("rfc822", "[day] [month repr:short] [year repr:last_two] [hour]:[minute] UTC"),
    ("rfc850",
      "[weekday], [day]-[month repr:short]-[year repr:last_two] [hour]:[minute]:[second] UTC"),
    ("rfc1123",
      "[weekday repr:short], [day] [month repr:short] [year] [hour]:[minute]:[second] UTC")]

/-- All names of layouts. -/
def layoutNames : List String :=
  ["unix", "rfc3339"] ++ clockPatterns.map Prod.fst ++ universalPatterns.map Prod.fst

/-- The text is the name, in any case of letters. -/
def IsName (cs : List Char) (name : String) : Prop := cs.map Char.toLower = name.toList

instance (cs : List Char) (name : String) : Decidable (IsName cs name) :=
  inferInstanceAs (Decidable (_ = _))

/-- What a time verb with an argument asks for at a timestamp. -/
inductive Asks (t : Timestamp) : Option (List Char) → TimeRequest → Prop where
  | absent {p : Calendar.Pattern} :
      Calendar.Pattern.read? standardPattern.toList = some p → Asks t none (.pattern p t)
  | seconds {cs : List Char} : IsName cs "unix" → Asks t (some cs) (.seconds t)
  | internet {cs : List Char} : IsName cs "rfc3339" → Asks t (some cs) (.internet t)
  | clock {cs : List Char} {name text : String} {p : Calendar.Pattern} :
      (name, text) ∈ clockPatterns → IsName cs name →
      Calendar.Pattern.read? text.toList = some p → Asks t (some cs) (.pattern p t)
  | universal {cs : List Char} {name text : String} {p : Calendar.Pattern} :
      (name, text) ∈ universalPatterns → IsName cs name →
      Calendar.Pattern.read? text.toList = some p → t.HasUniversalDate →
      Asks t (some cs) (.pattern p { t with offset := 0 })
  | custom {cs : List Char} {p : Calendar.Pattern} :
      (∀ name ∈ layoutNames, ¬ IsName cs name) →
      Calendar.Pattern.read? cs = some p → Asks t (some cs) (.pattern p t)

/-- The argument names universal time, which has no date at the timestamp. -/
def Stops (argument : Option (List Char)) (t : Timestamp) : Prop :=
  ∃ cs name text, argument = some cs ∧ (name, text) ∈ universalPatterns ∧ IsName cs name ∧
    ¬ t.HasUniversalDate

end TimeLayout

namespace NamedTime

/-- The names of the layouts are all different. -/
theorem lookup_named {entry : String × NamedTime} (h : entry ∈ named) :
    named.lookup entry.1 = some entry.2 := by
  have hall : ∀ entry ∈ named, named.lookup entry.1 = some entry.2 := by decide
  exact hall entry h

theorem ofName?_eq_some_iff {cs : List Char} {layout : NamedTime} :
    ofName? cs = some layout ↔ ∃ name, (name, layout) ∈ named ∧ TimeLayout.IsName cs name := by
  rw [ofName?]
  constructor
  · intro h
    obtain ⟨front, back, hnamed, -⟩ := List.lookup_eq_some_iff.1 h
    refine ⟨String.ofList (cs.map Char.toLower), ?_, String.toList_ofList.symm⟩
    rw [hnamed]
    exact List.mem_append_right _ List.mem_cons_self
  · rintro ⟨name, hname, hcs⟩
    rw [show cs.map Char.toLower = name.toList from hcs, String.ofList_toList]
    exact lookup_named hname

/-- A layout with a pattern asks for it. -/
theorem request?_of_patternText {layout : NamedTime} {text : String}
    (h : layout.patternText = some text) (t : Timestamp) :
    layout.request? t = (Calendar.Pattern.read? text.toList).map (.pattern · t) := by
  have hpattern : layout.pattern? = Calendar.Pattern.read? text.toList := by
    rw [pattern?, h, Option.bind_some]
  rw [request?, hpattern]
  · rintro rfl
    cases h
  · rintro rfl
    cases h

/-- The spelled patterns are those of the named layouts, and the clocks are theirs. -/
theorem exists_of_mem_patterns (ofUniversal : Bool) {entry : String × String}
    (h : entry ∈ if ofUniversal then TimeLayout.universalPatterns else TimeLayout.clockPatterns) :
    ∃ layout, (entry.1, layout) ∈ named ∧ layout.patternText = some entry.2 ∧
      layout.isUniversal = ofUniversal := by
  have hall : ∀ ofUniversal : Bool, ∀ entry ∈ (if ofUniversal then TimeLayout.universalPatterns
        else TimeLayout.clockPatterns),
      ∃ other ∈ named, other.1 = entry.1 ∧ other.2.patternText = some entry.2 ∧
        other.2.isUniversal = ofUniversal := by
    decide +kernel
  obtain ⟨⟨name, layout⟩, hmem, rfl, htext, huniversal⟩ := hall ofUniversal entry h
  exact ⟨layout, hmem, htext, huniversal⟩

/-- Every named layout is spelled. -/
theorem spelled {name : String} {layout : NamedTime} (h : (name, layout) ∈ named) :
    (name, layout) = ("unix", unix) ∨ (name, layout) = ("rfc3339", rfc3339) ∨
      ∃ text, (name, text) ∈
        if layout.isUniversal then TimeLayout.universalPatterns else TimeLayout.clockPatterns := by
  have hall : ∀ entry ∈ named, entry = ("unix", unix) ∨ entry = ("rfc3339", rfc3339) ∨
      entry.1 ∈ (if entry.2.isUniversal then TimeLayout.universalPatterns
        else TimeLayout.clockPatterns).map Prod.fst := by
    decide +kernel
  refine (hall _ h).imp_right fun hrest => hrest.imp_right fun hname => ?_
  obtain ⟨⟨_, text⟩, hmem, rfl⟩ := List.mem_map.1 hname
  exact ⟨text, hmem⟩

theorem mem_layoutNames {name : String} :
    name ∈ TimeLayout.layoutNames ↔ ∃ layout, (name, layout) ∈ named := by
  have hsame : (∀ name ∈ TimeLayout.layoutNames, name ∈ named.map Prod.fst) ∧
      ∀ name ∈ named.map Prod.fst, name ∈ TimeLayout.layoutNames := by
    decide +kernel
  constructor
  · intro h
    obtain ⟨⟨_, layout⟩, hmem, rfl⟩ := List.mem_map.1 (hsame.1 name h)
    exact ⟨layout, hmem⟩
  · rintro ⟨layout, hmem⟩
    exact hsame.2 name (List.mem_map_of_mem hmem)

end NamedTime

namespace TimeLayout

variable {t : Timestamp} {argument : Option (List Char)}

theorem request?_named (t : Timestamp) (layout : NamedTime) :
    (named layout).request? t = layout.request? t := rfl

theorem patternText_standard : NamedTime.standard.patternText = some standardPattern := rfl

theorem ofArgument_of_isName {cs : List Char} {name : String} {layout : NamedTime}
    (h : (name, layout) ∈ NamedTime.named) (hcs : IsName cs name) :
    ofArgument (some cs) = named layout := by
  rw [ofArgument, NamedTime.ofName?_eq_some_iff.2 ⟨name, h, hcs⟩]

/-- The layout of a spelled name shows the clock of its table by its pattern. -/
theorem ofArgument_of_mem_patterns (ofUniversal : Bool) {cs : List Char} {name text : String}
    (hmem : (name, text) ∈ if ofUniversal then universalPatterns else clockPatterns)
    (hcs : IsName cs name) (t : Timestamp) :
    (ofArgument (some cs)).clock? t = (if ofUniversal then t.toUtc? else some t) ∧
      (ofArgument (some cs)).request? t =
        (Calendar.Pattern.read? text.toList).map (.pattern · t) := by
  obtain ⟨layout, hlayout, htext, rfl⟩ := NamedTime.exists_of_mem_patterns ofUniversal hmem
  rw [ofArgument_of_isName hlayout hcs]
  exact ⟨rfl, NamedTime.request?_of_patternText htext t⟩

theorem ofArgument_of_forall_not {cs : List Char} (h : ∀ name ∈ layoutNames, ¬ IsName cs name) :
    ofArgument (some cs) = custom (String.ofList cs) (Calendar.Pattern.read? cs) := by
  have hname : NamedTime.ofName? cs = none := by
    refine Option.eq_none_iff_forall_ne_some.2 fun layout hlayout => ?_
    obtain ⟨name, hmem, hcs⟩ := NamedTime.ofName?_eq_some_iff.1 hlayout
    exact h name (NamedTime.mem_layoutNames.2 ⟨layout, hmem⟩) hcs
  rw [ofArgument, hname]

/-- An argument names a layout, or it is none of the names. -/
theorem named_or_custom (cs : List Char) :
    (∃ name layout, (name, layout) ∈ NamedTime.named ∧ IsName cs name) ∨
      ∀ name ∈ layoutNames, ¬ IsName cs name := by
  cases hname : NamedTime.ofName? cs with
  | some layout =>
    obtain ⟨name, hmem, hcs⟩ := NamedTime.ofName?_eq_some_iff.1 hname
    exact .inl ⟨name, layout, hmem, hcs⟩
  | none =>
    refine .inr fun name hmem hcs => ?_
    obtain ⟨layout, hlayout⟩ := NamedTime.mem_layoutNames.1 hmem
    rw [NamedTime.ofName?_eq_some_iff.2 ⟨name, hlayout, hcs⟩] at hname
    cases hname

/-- The rendering stops exactly where the layout of the argument has no clock to show. -/
theorem stops_iff : Stops argument t ↔ (ofArgument argument).clock? t = none := by
  constructor
  · rintro ⟨cs, name, text, rfl, hmem, hcs, hdate⟩
    rw [(ofArgument_of_mem_patterns true hmem hcs t).1, if_pos rfl, Timestamp.toUtc?_eq,
      if_neg hdate]
  · intro hnone
    cases argument with
    | none => cases hnone
    | some cs =>
      rcases named_or_custom cs with ⟨name, layout, hnamed, hcs⟩ | hcustom
      · rcases NamedTime.spelled hnamed with h | h | ⟨text, hmem⟩
        · cases h
          rw [ofArgument_of_isName hnamed hcs] at hnone
          cases hnone
        · cases h
          rw [ofArgument_of_isName hnamed hcs] at hnone
          cases hnone
        · rw [(ofArgument_of_mem_patterns _ hmem hcs t).1] at hnone
          cases huniversal : layout.isUniversal with
          | false =>
            rw [huniversal] at hnone
            cases hnone
          | true =>
            rw [huniversal] at hmem hnone
            refine ⟨cs, name, text, rfl, hmem, hcs, fun hdate => ?_⟩
            rw [if_pos rfl, Timestamp.toUtc?_eq, if_pos hdate] at hnone
            cases hnone
      · rw [ofArgument_of_forall_not hcustom] at hnone
        cases hnone

/-- What a verb asks for is what the layout of its argument asks for, on the clock that the
    layout shows. -/
theorem asks_iff {request : TimeRequest} :
    Asks t argument request ↔ ∃ shown, (ofArgument argument).clock? t = some shown ∧
      (ofArgument argument).request? shown = some request := by
  constructor
  · intro h
    cases h with
    | absent hp =>
      refine ⟨t, rfl, ?_⟩
      rw [ofArgument, request?_named, NamedTime.request?_of_patternText patternText_standard, hp,
        Option.map_some]
    | seconds hcs =>
      rw [ofArgument_of_isName (by decide : ("unix", .unix) ∈ NamedTime.named) hcs]
      exact ⟨t, rfl, rfl⟩
    | internet hcs =>
      rw [ofArgument_of_isName (by decide : ("rfc3339", .rfc3339) ∈ NamedTime.named) hcs]
      exact ⟨t, rfl, rfl⟩
    | clock hmem hcs hp =>
      refine ⟨t, (ofArgument_of_mem_patterns false hmem hcs t).1, ?_⟩
      rw [(ofArgument_of_mem_patterns false hmem hcs t).2, hp, Option.map_some]
    | universal hmem hcs hp hdate =>
      refine ⟨{ t with offset := 0 }, ?_, ?_⟩
      · rw [(ofArgument_of_mem_patterns true hmem hcs t).1, if_pos rfl, Timestamp.toUtc?_eq,
          if_pos hdate]
      · rw [(ofArgument_of_mem_patterns true hmem hcs _).2, hp, Option.map_some]
    | custom hcustom hp =>
      rw [ofArgument_of_forall_not hcustom, hp]
      exact ⟨t, rfl, rfl⟩
  · rintro ⟨shown, hclock, hrequest⟩
    cases argument with
    | none =>
      cases hclock
      rw [ofArgument, request?_named,
        NamedTime.request?_of_patternText patternText_standard] at hrequest
      obtain ⟨p, hp, rfl⟩ := Option.map_eq_some_iff.1 hrequest
      exact .absent hp
    | some cs =>
      rcases named_or_custom cs with ⟨name, layout, hnamed, hcs⟩ | hcustom
      · rcases NamedTime.spelled hnamed with h | h | ⟨text, hmem⟩
        · cases h
          rw [ofArgument_of_isName hnamed hcs] at hclock hrequest
          cases hclock
          cases hrequest
          exact .seconds hcs
        · cases h
          rw [ofArgument_of_isName hnamed hcs] at hclock hrequest
          cases hclock
          cases hrequest
          exact .internet hcs
        · rw [(ofArgument_of_mem_patterns _ hmem hcs t).1] at hclock
          rw [(ofArgument_of_mem_patterns _ hmem hcs shown).2] at hrequest
          obtain ⟨p, hp, rfl⟩ := Option.map_eq_some_iff.1 hrequest
          cases huniversal : layout.isUniversal with
          | false =>
            rw [huniversal] at hmem hclock
            cases hclock
            exact .clock hmem hcs hp
          | true =>
            rw [huniversal] at hmem hclock
            rw [if_pos rfl, Timestamp.toUtc?_eq] at hclock
            split at hclock
            · next hdate =>
              cases hclock
              exact .universal hmem hcs hp hdate
            · cases hclock
      · rw [ofArgument_of_forall_not hcustom] at hclock hrequest
        cases hclock
        obtain ⟨p, hp, rfl⟩ := Option.map_eq_some_iff.1 hrequest
        exact .custom hcustom hp

end TimeLayout

end Logbook
