import Logbook.Proofs.Template.TimeAsked
import Logbook.Template.Encoder

/-!
# Times behind what a template wrote

A time layout adds to a buffer and takes back what a failing attempt has added. `Shows`
says what has to stand behind the buffer in the end: the whole text that is asked for, the
whole text of the default layout where that is not to be had or empty, or the seconds.
All that is assumed of a writer is `TimeWriter.Faithful`: where it finishes, it wrote the
whole text. What it adds where it fails is open.

`TimeLayout.renderInto_ofArgument` says of every argument of a time verb and every buffer
that this text is written, unless the rendering stops, and that universal time and the
seconds show the instant and not the offset. `Program.render?_eq_some_iff` says when a whole
program has a text.
-/

namespace Logbook

open Calendar (Timestamp)

/-- The whole text that is asked for, if there is one. -/
def TimeRequest.text? : TimeRequest → Option (List Char)
  | seconds t => some t.secondsText
  | internet t => t.rfc3339?
  | pattern p t => some (p.format t)

theorem Calendar.Timestamp.secondsText_ne_nil (t : Timestamp) : t.secondsText ≠ [] := by
  rw [secondsText, integerText]
  split
  · exact List.cons_ne_nil _ _
  · exact Text.digits_ne_nil _

namespace TimeWriter

variable {α : Type} {writer : TimeWriter α} {units : List Char → List α}

/-- Where the writer finishes it wrote the whole text, as `units` gives it. Nothing is said
    of what it writes where it fails. -/
structure Faithful (writer : TimeWriter α) (units : List Char → List α) : Prop where
  units_eq_nil_iff : ∀ cs, units cs = [] ↔ cs = []
  seconds : ∀ t, writer.seconds t = units t.secondsText
  internet : ∀ t, (writer.internet t).finished = true →
    ∃ cs, t.rfc3339? = some cs ∧ (writer.internet t).written = units cs
  pattern : ∀ p t, (writer.pattern p t).finished = true →
    (writer.pattern p t).written = units (p.format t)

theorem Faithful.attempt (h : writer.Faithful units) {request : TimeRequest}
    (hfinished : (writer.attempt request).finished = true) :
    ∃ cs, request.text? = some cs ∧ (writer.attempt request).written = units cs := by
  cases request with
  | seconds t => exact ⟨t.secondsText, rfl, h.seconds t⟩
  | internet t => exact h.internet t hfinished
  | pattern p t => exact ⟨p.format t, rfl, h.pattern p t hfinished⟩

theorem write_some (request : TimeRequest) (out : List α) :
    writer.write (some request) out =
      (out ++ (writer.attempt request).written, (writer.attempt request).finished) := rfl

/-- Whatever an attempt has added is taken back by the length of the buffer before it. -/
theorem take_write (request? : Option TimeRequest) (out : List α) :
    (writer.write request? out).1.take out.length = out := by
  cases request? with
  | none => exact List.take_length
  | some request => exact List.take_left

end TimeWriter

namespace TimeLayout

variable {α : Type} {writer : TimeWriter α} {units : List Char → List α}
  {argument : Option (List Char)} {t : Timestamp} {out added : List α}

/-- Nothing comes of what the verb asks for: it asks for nothing, since its pattern is none
    or universal time has no date, or what it asks for cannot be written or is empty. -/
def Fruitless (writer : TimeWriter α) (argument : Option (List Char)) (t : Timestamp) : Prop :=
  ∀ request, Asks t argument request → (writer.attempt request).finished = true →
    request.text? = some []

/-- What is to be shown of a timestamp: the whole text that the verb asks for, or else the
    whole text of the default layout, or else the seconds. -/
inductive Shows (writer : TimeWriter α) (units : List Char → List α)
    (argument : Option (List Char)) (t : Timestamp) : List α → Prop where
  | whole {request : TimeRequest} {cs : List Char} :
      Asks t argument request → (writer.attempt request).finished = true →
      request.text? = some cs → cs ≠ [] → Shows writer units argument t (units cs)
  | standard {request : TimeRequest} {cs : List Char} :
      Fruitless writer argument t →
      Asks t none request → (writer.attempt request).finished = true →
      request.text? = some cs → Shows writer units argument t (units cs)
  | seconds :
      Fruitless writer argument t →
      (∀ request, Asks t none request → (writer.attempt request).finished = false) →
      Shows writer units argument t (units t.secondsText)

/-- The verb shows the instant and not the offset: the seconds, and universal time where it
    can be written. -/
inductive ShowsInstant (writer : TimeWriter α) (t : Timestamp) : Option (List Char) → Prop where
  | seconds {cs : List Char} : IsName cs "unix" → ShowsInstant writer t (some cs)
  | universal {cs : List Char} {name text : String} {request : TimeRequest} :
      (name, text) ∈ universalPatterns → IsName cs name → Asks t (some cs) request →
      (writer.attempt request).finished = true → ShowsInstant writer t (some cs)

theorem asks_none_iff {request : TimeRequest} :
    Asks t none request ↔ NamedTime.standard.request? t = some request := by
  rw [asks_iff]
  constructor
  · rintro ⟨shown, hclock, hrequest⟩
    cases hclock
    exact hrequest
  · exact fun hrequest => ⟨t, rfl, hrequest⟩

theorem Asks.unique {request request' : TimeRequest} (h : Asks t argument request)
    (h' : Asks t argument request') : request = request' := by
  obtain ⟨shown, hclock, hrequest⟩ := asks_iff.1 h
  obtain ⟨shown', hclock', hrequest'⟩ := asks_iff.1 h'
  cases hclock.symm.trans hclock'
  exact Option.some.inj (hrequest.symm.trans hrequest')

/-- The default layout and those of universal time can be read, and have a blank in them, so
    that their texts are not empty. -/
theorem exists_pattern {text : String}
    (h : text ∈ standardPattern :: universalPatterns.map Prod.snd) :
    ∃ p, Calendar.Pattern.read? text.toList = some p ∧ ∀ t : Timestamp, p.format t ≠ [] := by
  have hblank : ∀ text ∈ standardPattern :: universalPatterns.map Prod.snd,
      (Calendar.Pattern.read? text.toList).any
        (fun p => decide (Calendar.Item.literal ' ' ∈ p)) = true := by
    decide +kernel
  obtain ⟨p, hp, hmem⟩ := Option.any_eq_true _ _ |>.1 (hblank text h)
  refine ⟨p, hp, fun t hnil => ?_⟩
  exact absurd (List.flatMap_eq_nil_iff.1 hnil _ (of_decide_eq_true hmem)) (List.cons_ne_nil _ _)

theorem asks_standard (t : Timestamp) :
    ∃ p : Calendar.Pattern, Asks t none (.pattern p t) ∧ p.format t ≠ [] := by
  obtain ⟨p, hp, hne⟩ := exists_pattern List.mem_cons_self
  exact ⟨p, .absent hp, hne t⟩

theorem renderInto_whole (hwriter : writer.Faithful units) {request : TimeRequest}
    {cs : List Char} (hasks : Asks t argument request)
    (hfinished : (writer.attempt request).finished = true) (hcs : request.text? = some cs)
    (hne : cs ≠ []) :
    (ofArgument argument).renderInto writer t out = some (out ++ units cs) := by
  obtain ⟨shown, hclock, hrequest⟩ := asks_iff.1 hasks
  obtain ⟨cs', hcs', hwritten⟩ := hwriter.attempt hfinished
  cases hcs.symm.trans hcs'
  have hpos : 0 < (units cs).length :=
    List.length_pos_iff.2 (mt (hwriter.units_eq_nil_iff cs).1 hne)
  rw [renderInto, hclock, Option.map_some, hrequest, TimeWriter.write_some, hfinished, hwritten]
  exact congrArg some (if_pos ⟨rfl, by rw [List.length_append]; omega⟩)

/-- Where nothing comes of what the verb asks for, the buffer is what it was before the
    default layout. -/
theorem renderInto_fruitless (hwriter : writer.Faithful units) (hgoes : ¬ Stops argument t)
    (h : Fruitless writer argument t) :
    (ofArgument argument).renderInto writer t out = some (renderStandard writer t out) := by
  obtain ⟨shown, hclock⟩ := Option.ne_none_iff_exists'.1 (mt stops_iff.2 hgoes)
  have hback := writer.take_write ((ofArgument argument).request? shown) out
  have hfails : ¬ ((writer.write ((ofArgument argument).request? shown) out).2 = true ∧
      out.length < (writer.write ((ofArgument argument).request? shown) out).1.length) := by
    rintro ⟨hfinished, hlonger⟩
    cases hrequest : (ofArgument argument).request? shown with
    | none =>
      rw [hrequest] at hfinished
      cases hfinished
    | some request =>
      rw [hrequest] at hfinished hlonger
      obtain ⟨cs, hcs, hwritten⟩ := hwriter.attempt hfinished
      cases hcs.symm.trans (h request (asks_iff.2 ⟨shown, hclock, hrequest⟩) hfinished)
      rw [TimeWriter.write_some, hwritten, (hwriter.units_eq_nil_iff []).2 rfl,
        List.append_nil] at hlonger
      exact Nat.lt_irrefl _ hlonger
  rw [renderInto, hclock, Option.map_some]
  dsimp only
  rw [if_neg hfails, hback]

theorem renderStandard_finished (hwriter : writer.Faithful units) {request : TimeRequest}
    {cs : List Char} (hasks : Asks t none request)
    (hfinished : (writer.attempt request).finished = true) (hcs : request.text? = some cs) :
    renderStandard writer t out = out ++ units cs := by
  obtain ⟨cs', hcs', hwritten⟩ := hwriter.attempt hfinished
  cases hcs.symm.trans hcs'
  rw [renderStandard, asks_none_iff.1 hasks, TimeWriter.write_some, hfinished, hwritten]
  exact if_pos rfl

theorem renderStandard_failed (hwriter : writer.Faithful units)
    (h : ∀ request, Asks t none request → (writer.attempt request).finished = false) :
    renderStandard writer t out = out ++ units t.secondsText := by
  obtain ⟨p, hasks, -⟩ := asks_standard t
  have hback := writer.take_write (NamedTime.standard.request? t) out
  have hfailed : ¬ (writer.write (NamedTime.standard.request? t) out).2 = true := by
    rw [asks_none_iff.1 hasks, TimeWriter.write_some, h _ hasks]
    exact Bool.false_ne_true
  rw [renderStandard, if_neg hfailed, hback, hwriter.seconds]

theorem renderInto_of_shows (hwriter : writer.Faithful units) (hgoes : ¬ Stops argument t)
    (h : Shows writer units argument t added) (out : List α) :
    (ofArgument argument).renderInto writer t out = some (out ++ added) := by
  cases h with
  | whole hasks hfinished hcs hne => exact renderInto_whole hwriter hasks hfinished hcs hne
  | standard hfruitless hasks hfinished hcs =>
    rw [renderInto_fruitless hwriter hgoes hfruitless,
      renderStandard_finished hwriter hasks hfinished hcs]
  | seconds hfruitless hfailed =>
    rw [renderInto_fruitless hwriter hgoes hfruitless, renderStandard_failed hwriter hfailed]

theorem exists_shows (hwriter : writer.Faithful units) (argument : Option (List Char))
    (t : Timestamp) : ∃ added, Shows writer units argument t added := by
  by_cases hfruitless : Fruitless writer argument t
  · obtain ⟨p, hasks, -⟩ := asks_standard t
    cases hfinished : (writer.attempt (.pattern p t)).finished with
    | true => exact ⟨_, .standard hfruitless hasks hfinished rfl⟩
    | false => exact ⟨_, .seconds hfruitless fun request h => hasks.unique h ▸ hfinished⟩
  · simp only [Fruitless, Classical.not_forall] at hfruitless
    obtain ⟨request, hasks, hfinished, hne⟩ := hfruitless
    obtain ⟨cs, hcs, -⟩ := hwriter.attempt hfinished
    refine ⟨_, .whole hasks hfinished hcs fun hnil => hne ?_⟩
    rw [hcs, hnil]

theorem Fruitless.not_whole (h : Fruitless writer argument t) {request : TimeRequest}
    {cs : List Char} (hasks : Asks t argument request)
    (hfinished : (writer.attempt request).finished = true) (hcs : request.text? = some cs) :
    cs = [] :=
  Option.some.inj (hcs.symm.trans (h request hasks hfinished))

/-- No two texts are to be shown of one timestamp. -/
theorem Shows.unique {added' : List α} (h : Shows writer units argument t added)
    (h' : Shows writer units argument t added') : added = added' := by
  cases h with
  | whole hasks hfinished hcs hne =>
    cases h' with
    | whole hasks' _ hcs' _ =>
      cases hasks.unique hasks'
      cases hcs.symm.trans hcs'
      rfl
    | standard hfruitless | seconds hfruitless =>
      exact absurd (hfruitless.not_whole hasks hfinished hcs) hne
  | standard hfruitless hasks hfinished hcs =>
    cases h' with
    | whole hasks' hfinished' hcs' hne' =>
      exact absurd (hfruitless.not_whole hasks' hfinished' hcs') hne'
    | standard _ hasks' _ hcs' =>
      cases hasks.unique hasks'
      cases hcs.symm.trans hcs'
      rfl
    | seconds _ hfailed => exact absurd (hfinished.symm.trans (hfailed _ hasks)) (by decide)
  | seconds hfruitless hfailed =>
    cases h' with
    | whole hasks' hfinished' hcs' hne' =>
      exact absurd (hfruitless.not_whole hasks' hfinished' hcs') hne'
    | standard _ hasks' hfinished' =>
      exact absurd (hfinished'.symm.trans (hfailed _ hasks')) (by decide)
    | seconds => rfl

theorem Shows.ne_nil (hwriter : writer.Faithful units) (h : Shows writer units argument t added) :
    added ≠ [] := by
  cases h with
  | whole _ _ _ hne => exact mt (hwriter.units_eq_nil_iff _).1 hne
  | standard _ hasks _ hcs =>
    obtain ⟨p, hpattern, hne⟩ := asks_standard t
    cases hpattern.unique hasks
    cases hcs
    exact mt (hwriter.units_eq_nil_iff _).1 hne
  | seconds => exact mt (hwriter.units_eq_nil_iff _).1 t.secondsText_ne_nil

/-- At two timestamps of one instant the same is shown. -/
theorem renderInto_of_showsInstant (hwriter : writer.Faithful units)
    (h : ShowsInstant writer t argument) {t' : Timestamp} (hseconds : t'.seconds = t.seconds)
    (hnanos : t'.nanos = t.nanos) :
    (ofArgument argument).renderInto writer t' out =
      (ofArgument argument).renderInto writer t out := by
  cases h with
  | seconds hcs =>
    have hshown : ∀ s : Timestamp,
        (ofArgument _).renderInto writer s out = some (out ++ units s.secondsText) := fun s =>
      renderInto_whole hwriter (.seconds hcs) rfl rfl s.secondsText_ne_nil
    rw [hshown t', hshown t, Timestamp.secondsText, Timestamp.secondsText, hseconds]
  | @universal cs name text request hmem hcs hasks hfinished =>
    obtain ⟨shown, hclock, hrequest⟩ := asks_iff.1 hasks
    -- both timestamps ask for the same text, by what is asked and not by what is shown
    have hasks' : Asks t' (some cs) request := by
      refine asks_iff.2 ⟨shown, ?_, hrequest⟩
      rw [(ofArgument_of_mem_patterns true hmem hcs _).1, if_pos rfl] at hclock ⊢
      rwa [Timestamp.toUtc?, hseconds, hnanos]
    obtain ⟨p, hp, hne⟩ := exists_pattern (List.mem_cons_of_mem _ (List.mem_map_of_mem hmem))
    rw [(ofArgument_of_mem_patterns true hmem hcs shown).2, hp, Option.map_some] at hrequest
    cases hrequest
    rw [renderInto_whole hwriter hasks' hfinished rfl (hne _),
      renderInto_whole hwriter hasks hfinished rfl (hne _)]

/-- For every argument of a time verb there is one text to be shown of a timestamp, which is
    not empty: what the argument asks for, written completely, or else the default layout,
    written completely, or else the seconds. The verb keeps what a buffer holds and adds this
    text to it, unless the rendering stops: exactly where the argument names universal time
    and that has no date, there is no result. Where the instant is shown the result is that
    of every timestamp of the same instant. -/
theorem renderInto_ofArgument (hwriter : writer.Faithful units) (argument : Option (List Char))
    (t : Timestamp) (out : List α) :
    (∃ added, added ≠ [] ∧ (∀ text, Shows writer units argument t text ↔ text = added) ∧
      ((ofArgument argument).renderInto writer t out = some (out ++ added) ↔
        ¬ Stops argument t)) ∧
    ((ofArgument argument).renderInto writer t out = none ↔ Stops argument t) ∧
    ∀ t' : Timestamp, t'.seconds = t.seconds → t'.nanos = t.nanos →
      ShowsInstant writer t argument →
      (ofArgument argument).renderInto writer t' out =
        (ofArgument argument).renderInto writer t out := by
  obtain ⟨added, hadded⟩ := exists_shows hwriter argument t
  have hstops : (ofArgument argument).renderInto writer t out = none ↔ Stops argument t := by
    rw [renderInto, Option.map_eq_none_iff, stops_iff]
  refine ⟨⟨added, hadded.ne_nil hwriter, fun text => ?_, fun hsome hstop => ?_,
    fun hgoes => renderInto_of_shows hwriter hgoes hadded out⟩, hstops,
    fun t' hseconds hnanos hinstant => renderInto_of_showsInstant hwriter hinstant hseconds hnanos⟩
  · exact ⟨fun htext => htext.unique hadded, fun heq => heq ▸ hadded⟩
  · rw [hstops.2 hstop] at hsome
    cases hsome

end TimeLayout

namespace TimeWriter

variable {α : Type} {units : List Char → List α}

/-- The units of octets. -/
def octets (cs : List Char) : List UInt8 := Text.Utf8.encode (String.ofList cs)

theorem octets_eq_nil_iff (cs : List Char) : octets cs = [] ↔ cs = [] := by
  rw [octets, Text.Utf8.encode, String.toList_ofList]
  cases cs with
  | nil => exact iff_of_true rfl rfl
  | cons c cs =>
    refine iff_of_false ?_ (List.cons_ne_nil _ _)
    rw [List.flatMap_cons]
    exact List.append_ne_nil_of_left_ne_nil String.utf8EncodeChar_ne_nil _

theorem faithful_calendar (hunits : ∀ cs, units cs = [] ↔ cs = []) :
    (calendar units).Faithful units where
  units_eq_nil_iff := hunits
  seconds _ := rfl
  internet t hfinished := by
    simp only [calendar] at hfinished ⊢
    split at hfinished
    · next cs hcs => exact ⟨cs, hcs, rfl⟩
    · cases hfinished
  pattern _ _ _ := rfl

theorem finished_calendar (request : TimeRequest) :
    ((calendar units).attempt request).finished = request.text?.isSome := by
  cases request with
  | seconds | pattern => rfl
  | internet t =>
    simp only [attempt, calendar, TimeRequest.text?]
    split <;> simp_all

end TimeWriter

namespace TimeLayout

/-- What the calendar shows as a text it shows in every kind of buffer. -/
theorem Shows.calendar {argument : Option (List Char)} {t : Timestamp} {cs : List Char}
    (h : Shows (.calendar id) id argument t cs) (units : List Char → List α) :
    Shows (.calendar units) units argument t (units cs) := by
  have hfinished : ∀ request,
      ((TimeWriter.calendar units).attempt request).finished =
        ((TimeWriter.calendar id).attempt request).finished := fun request =>
    (TimeWriter.finished_calendar request).trans (TimeWriter.finished_calendar request).symm
  have hfruitless : Fruitless (.calendar id) argument t → Fruitless (.calendar units) argument t :=
    fun h request hasks hdone => h request hasks (hfinished request ▸ hdone)
  cases h with
  | whole hasks hdone hcs hne => exact .whole hasks ((hfinished _).trans hdone) hcs hne
  | standard hnone hasks hdone hcs =>
    exact .standard (hfruitless hnone) hasks ((hfinished _).trans hdone) hcs
  | seconds hnone hfailed =>
    exact .seconds (hfruitless hnone) fun request hasks =>
      (hfinished request).trans (hfailed request hasks)

/-- In a buffer of octets the calendar shows what `render?` gives as a text. -/
theorem renderInto_calendar (argument : Option (List Char)) (t : Timestamp) (out : List UInt8) :
    (ofArgument argument).renderInto (.calendar TimeWriter.octets) t out =
      ((ofArgument argument).render? t).map fun text => out ++ Text.Utf8.encode text := by
  by_cases hstop : Stops argument t
  · rw [render?, renderInto, renderInto, stops_iff.1 hstop]
    rfl
  · have htexts : (TimeWriter.calendar id).Faithful id :=
      TimeWriter.faithful_calendar fun cs => Iff.rfl
    have hoctets := TimeWriter.faithful_calendar TimeWriter.octets_eq_nil_iff
    obtain ⟨cs, hcs⟩ := exists_shows htexts argument t
    rw [renderInto_of_shows hoctets hstop (hcs.calendar TimeWriter.octets), render?,
      renderInto_of_shows htexts hstop hcs]
    rfl

/-- Behind an octet of a template: a pattern of the template's own; the default layout, since
    the internet format has no seconds in its offsets; and a date of universal time, which is
    that of the instant on both clocks. -/
theorem renderInto_ofArgument_clocks :
    (TimeWriter.calendar TimeWriter.octets).Faithful TimeWriter.octets ∧
    (ofArgument (some "[hour]h[minute]".toList)).renderInto (.calendar TimeWriter.octets)
        ⟨1709622489, 123456789, 7200⟩ [91] =
      some (91 :: TimeWriter.octets "09h08".toList) ∧
    (ofArgument (some "Rfc3339".toList)).renderInto (.calendar TimeWriter.octets)
        ⟨1709622489, 123456789, 30⟩ [91] =
      some (91 :: TimeWriter.octets "2024-03-05 07:08:39.123".toList) ∧
    (ofArgument (some "UnixDate".toList)).renderInto (.calendar TimeWriter.octets)
        ⟨1709622489, 123456789, 7200⟩ [91] =
      some (91 :: TimeWriter.octets "Tue Mar  5 07:08:09 UTC 2024".toList) ∧
    (ofArgument (some "UnixDate".toList)).renderInto (.calendar TimeWriter.octets)
        ⟨1709622489, 123456789, -12600⟩ [91] =
      some (91 :: TimeWriter.octets "Tue Mar  5 07:08:09 UTC 2024".toList) := by
  have hwriter := TimeWriter.faithful_calendar TimeWriter.octets_eq_nil_iff
  have hinto : ∀ (argument : Option (List Char)) (t : Timestamp) (cs : List Char),
      t.HasUniversalDate →
      Shows (.calendar TimeWriter.octets) TimeWriter.octets argument t (TimeWriter.octets cs) →
      (ofArgument argument).renderInto (.calendar TimeWriter.octets) t [91] =
        some (91 :: TimeWriter.octets cs) := by
    intro argument t cs hdate hshows
    obtain ⟨⟨added, -, hunique, hwritten⟩, -⟩ := renderInto_ofArgument hwriter argument t [91]
    rw [hwritten.2 fun ⟨_, _, _, _, _, _, hnone⟩ => hnone hdate, ← (hunique _).1 hshows]
    rfl
  have hread : ∀ (text : List Char) (t : Timestamp) (cs : List Char),
      (Calendar.Pattern.read? text).map (·.format t) = some cs →
      ∃ p, Calendar.Pattern.read? text = some p ∧ p.format t = cs := fun _ _ _ h =>
    Option.map_eq_some_iff.1 h
  obtain ⟨⟨name, text⟩, hmem, rfl, hformat⟩ : ∃ entry ∈ universalPatterns, "unixdate" = entry.1 ∧
      (Calendar.Pattern.read? entry.2.toList).map (·.format ⟨1709622489, 123456789, 0⟩) =
        some "Tue Mar  5 07:08:09 UTC 2024".toList :=
    ⟨_, List.mem_cons_self, rfl, by decide +kernel⟩
  obtain ⟨date, hdate, hdateText⟩ := hread text.toList _ _ hformat
  have hasks : Asks ⟨1709622489, 123456789, 7200⟩ (some "UnixDate".toList)
      (.pattern date ⟨1709622489, 123456789, 0⟩) :=
    .universal hmem (by decide) hdate (by decide)
  have hshown := hinto _ _ _ (by decide) (.whole hasks rfl (congrArg some hdateText) (by decide))
  have hinstant := (renderInto_ofArgument hwriter (some "UnixDate".toList)
    ⟨1709622489, 123456789, 7200⟩ [91]).2.2
  refine ⟨hwriter, hinto _ _ _ (by decide) ?_, hinto _ _ _ (by decide) ?_, hshown, ?_⟩
  · obtain ⟨p, hp, htext⟩ := hread "[hour]h[minute]".toList ⟨1709622489, 123456789, 7200⟩
      "09h08".toList (by decide +kernel)
    exact .whole (.custom (by decide) hp) rfl (congrArg some htext) (by decide)
  · obtain ⟨p, hp, htext⟩ := hread standardPattern.toList ⟨1709622489, 123456789, 30⟩
      "2024-03-05 07:08:39.123".toList (by decide +kernel)
    refine .standard ?_ (.absent hp) rfl (congrArg some htext)
    intro request hrequest hfinished
    rw [hrequest.unique (.internet (by decide)), TimeWriter.finished_calendar] at hfinished
    exact absurd hfinished (by decide +kernel)
  · rw [← hshown]
    exact hinstant ⟨1709622489, 123456789, -12600⟩ rfl rfl
      (.universal hmem (by decide) hasks rfl)

/-- On a clock behind universal time the year 9999 has an hour more. In that hour the default
    layout is to be shown in place of a date of universal time, and the rendering stops. -/
theorem renderInto_unixDate_stops :
    let t : Timestamp := ⟨253402302600, 0, -3600⟩
    t.localTime = ⟨⟨9999, 12, 31⟩, 4, 23, 30, 0⟩ ∧
    Shows (.calendar TimeWriter.octets) TimeWriter.octets (some "unixdate".toList) t
      (TimeWriter.octets "9999-12-31 23:30:00.000".toList) ∧
    (ofArgument (some "unixdate".toList)).renderInto (.calendar TimeWriter.octets) t [91] = none ∧
    (Program.compile "\x7b\x7bt/unixdate\x7d\x7d").program.render? ⟨.standard, false⟩
      (.new .error t) = none := by
  intro t
  have hstops : Stops (some "unixdate".toList) t :=
    ⟨_, "unixdate", _, rfl, List.head_mem (by decide : universalPatterns ≠ []), by decide,
      by decide⟩
  refine ⟨by decide +kernel, ?_, ?_, by decide +kernel⟩
  · obtain ⟨p, hp, htext⟩ : ∃ p, Calendar.Pattern.read? standardPattern.toList = some p ∧
        p.format t = "9999-12-31 23:30:00.000".toList :=
      Option.map_eq_some_iff.1 (by decide +kernel)
    refine .standard ?_ (.absent hp) rfl (congrArg some htext)
    -- nothing is asked for where universal time has no date
    intro request hasks
    obtain ⟨shown, hclock, -⟩ := asks_iff.1 hasks
    rw [stops_iff.1 hstops] at hclock
    cases hclock
  · rw [renderInto, stops_iff.1 hstops, Option.map_none]

end TimeLayout

theorem TimeLayout.render?_eq_some_iff {layout : TimeLayout} {t : Timestamp} {text : String} :
    layout.render? t = some text ↔ layout.clock? t ≠ none ∧ text = layout.render t := by
  have hnone : layout.render? t = none ↔ layout.clock? t = none := by
    rw [render?, renderInto, Option.map_eq_none_iff, Option.map_eq_none_iff]
  rw [render, ne_eq, ← hnone]
  cases layout.render? t with
  | none => exact iff_of_false nofun fun h => h.1 rfl
  | some shown => exact ⟨fun h => ⟨Option.some_ne_none _, (Option.some.inj h).symm⟩,
      fun h => congrArg some h.2.symm⟩

namespace Program

variable (p : Program) (settings : RenderSettings) (e : Event)

theorem renderInstruction?_eq_some_iff (i : Instruction) (text : String) :
    p.renderInstruction? settings e i = some text ↔
      (∀ layout, i = .time layout → layout.clock? e.time ≠ none) ∧
        text = p.renderInstruction settings e i := by
  cases i with
  | time layout => simp [renderInstruction?, renderInstruction, TimeLayout.render?_eq_some_iff]
  | _ => simp [renderInstruction?, eq_comm]

theorem mapM_renderInstruction?_eq_some_iff (instructions : List Instruction)
    (texts : List String) :
    instructions.mapM (p.renderInstruction? settings e) = some texts ↔
      (∀ layout, Instruction.time layout ∈ instructions → layout.clock? e.time ≠ none) ∧
        texts = instructions.map (p.renderInstruction settings e) := by
  induction instructions generalizing texts with
  | nil => simp [eq_comm]
  | cons i instructions ih =>
    simp only [List.mapM_cons, Option.bind_eq_bind, Option.bind_eq_some_iff, Option.pure_def,
      Option.some.injEq, renderInstruction?_eq_some_iff, ih, List.mem_cons, List.map_cons]
    constructor
    · rintro ⟨text, ⟨hfirst, rfl⟩, rest, ⟨hrest, rfl⟩, rfl⟩
      refine ⟨fun layout hlayout => ?_, rfl⟩
      exact hlayout.elim (fun h => hfirst layout h.symm) (hrest layout)
    · rintro ⟨hall, rfl⟩
      exact ⟨_, ⟨fun layout h => hall layout (.inl h.symm), rfl⟩, _,
        ⟨fun layout h => hall layout (.inr h), rfl⟩, rfl⟩

/-- A program has a text exactly where none of its times stops the rendering, and the text is
    that of its instructions one after another. -/
theorem render?_eq_some_iff (text : String) :
    p.render? settings e = some text ↔
      (∀ layout, Instruction.time layout ∈ p.instructions → layout.clock? e.time ≠ none) ∧
        text = p.render settings e := by
  simp only [render?, Option.map_eq_some_iff, mapM_renderInstruction?_eq_some_iff, render]
  constructor
  · rintro ⟨texts, ⟨hall, rfl⟩, rfl⟩
    exact ⟨hall, rfl⟩
  · rintro ⟨hall, rfl⟩
    exact ⟨_, ⟨hall, rfl⟩, rfl⟩

end Program

end Logbook
