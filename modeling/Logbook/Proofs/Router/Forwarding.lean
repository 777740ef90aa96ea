import Mathlib.Data.List.Basic
import Logbook.Proofs.Router.Loans
import Logbook.Router.Signal

/-!
# Forwarded signals

Which event a signal becomes. Its values are taken one after another: the last text that
is named message is the body, and every other value is a field, as `Signal.run_steps`
says. `Session.forward_dispatches` shows that a signal makes the session dispatch exactly
this event, and that it is the event that the name of the values alone would tell if and
only if all values that are named message are texts.
-/

namespace Logbook

/-- A record with a body, if there is one, and fields of its own. -/
def Record.plain (body : Option String) (fields : List Field) : Record :=
  ⟨[], body.toList.map fun text => ⟨text, 0⟩, fields, [], 0⟩

theorem Record.putBody_plain (body : Option String) (fields : List Field) (text : String) :
    (plain body fields).putBody text = plain (some text) fields := by
  cases body <;> rfl

theorem Record.addField_plain (body : Option String) (fields : List Field) (name : String)
    (value : Payload) :
    (plain body fields).addField (.make name value) = plain body (fields ++ [.make name value]) :=
  rfl

theorem Record.body_plain (body : Option String) (fields : List Field) :
    (plain body fields).body = body.getD "" := by
  cases body <;> rfl

namespace Signal

/-- The value is named message. -/
def isMessage (v : String × SignalValue) : Bool := v.1 == messageName

/-- The value is a text that is named message. -/
def isTextMessage (v : String × SignalValue) : Bool := isMessage v && v.2.text?.isSome

/-- The value as a field. -/
def field (v : String × SignalValue) : Field := .make v.1 v.2.toPayload

/-- The text of the last one of the chosen values, if there is one. -/
def body? (chosen : String × SignalValue → Bool) (s : Signal) : Option String :=
  (s.values.filter chosen).getLast?.map fun v => v.2.toPayload.plainText

/-- The values that are not chosen, as fields in their order. -/
def fields (chosen : String × SignalValue → Bool) (s : Signal) : List Field :=
  (s.values.filter fun v => !chosen v).map field

theorem plainText_of_text? {value : SignalValue} {text : String} (h : value.text? = some text) :
    value.toPayload.plainText = text := by
  cases value <;> simp_all [SignalValue.text?, SignalValue.toPayload, Payload.plainText]

/-- A text that is named message replaces the body, and any other value becomes the last
    field. -/
theorem apply_step (recorder : ErrorRecorder) (level : Level) (time : Calendar.Timestamp)
    (body : Option String) (fields : List Field) (v : String × SignalValue) :
    (⟨level, time, .plain body fields, none⟩ : Event).apply recorder (step v.1 v.2) =
      if isTextMessage v then ⟨level, time, .plain (some v.2.toPayload.plainText) fields, none⟩
      else ⟨level, time, .plain body (fields ++ [field v]), none⟩ := by
  unfold step isTextMessage isMessage
  cases htext : v.2.text? with
  | none => simp [Event.apply, Event.addField, Record.addField_plain, field]
  | some text =>
    by_cases hname : v.1 = messageName
    · simp [hname, Event.apply, Event.withMessage, Record.putBody_plain,
        plainText_of_text? htext]
    · simp [hname, Event.apply, Event.addField, Record.addField_plain, field]

/-- The values of a signal are taken one after another behind those that were before. -/
theorem run_values (recorder : ErrorRecorder) (level : Level) (time : Calendar.Timestamp)
    (body : Option String) (fields : List Field) (values : List (String × SignalValue)) :
    (⟨level, time, .plain body fields, none⟩ : Event).run recorder
        (values.map fun v => step v.1 v.2) =
      ⟨level, time,
        .plain
          (((values.filter isTextMessage).getLast?.map fun v => v.2.toPayload.plainText).or body)
          (fields ++ (values.filter fun v => !isTextMessage v).map field), none⟩ := by
  induction values generalizing body fields with
  | nil => simp [Event.run]
  | cons v values ih =>
    have hrun : (⟨level, time, .plain body fields, none⟩ : Event).run recorder
        ((v :: values).map fun v => step v.1 v.2) =
      ((⟨level, time, .plain body fields, none⟩ : Event).apply recorder (step v.1 v.2)).run
        recorder (values.map fun v => step v.1 v.2) := rfl
    rw [hrun, apply_step]
    by_cases htext : isTextMessage v = true
    · rw [if_pos htext, ih]
      cases hlast : (values.filter isTextMessage).getLast? <;>
        simp [htext, List.getLast?_cons, hlast]
    · rw [if_neg htext, ih]
      simp [htext]

/-- The event that a signal makes of a new one. -/
theorem run_steps (recorder : ErrorRecorder) (level : Level) (time : Calendar.Timestamp)
    (s : Signal) :
    (Event.new level time).run recorder s.steps =
      ⟨level, time, .plain (s.body? isTextMessage) (s.fields isTextMessage), none⟩ := by
  have hvalues := run_values recorder level time none [] s.values
  rw [Option.or_none, List.nil_append] at hvalues
  exact hvalues

/-- To choose by name alone makes a difference exactly if a value that is named message is
    no text. -/
theorem chosen_alike_iff (s : Signal) :
    ((s.body? isTextMessage).getD "" = (s.body? isMessage).getD "" ∧
        s.fields isTextMessage = s.fields isMessage) ↔
      ∀ v ∈ s.values, v.1 = messageName → v.2.text?.isSome = true := by
  constructor
  · rintro ⟨-, hfields⟩ v hv hname
    -- a value that is no field in one reading is none in the other
    have hlength : (s.values.filter fun v => !isMessage v).length =
        (s.values.filter fun v => !isTextMessage v).length := by
      have hlengths := congrArg List.length hfields
      rwa [fields, fields, List.length_map, List.length_map, eq_comm] at hlengths
    have hsublist : (s.values.filter fun v => !isMessage v).Sublist
        (s.values.filter fun v => !isTextMessage v) := by
      refine List.monotone_filter_right s.values fun v h => ?_
      rw [isTextMessage, Bool.not_and, (h : (!isMessage v) = true), Bool.true_or]
    have heq := hsublist.eq_of_length hlength
    have hmessage : isMessage v = true := beq_iff_eq.2 hname
    by_contra hnot
    have hfield : v ∈ s.values.filter fun v => !isTextMessage v := by
      refine List.mem_filter.2 ⟨hv, ?_⟩
      rw [isTextMessage, Bool.eq_false_iff.2 hnot, Bool.and_false, Bool.not_false]
    rw [← heq, List.mem_filter, hmessage] at hfield
    exact Bool.false_ne_true hfield.2
  · intro htexts
    have hsame : ∀ v ∈ s.values, isTextMessage v = isMessage v := by
      intro v hv
      by_cases hname : v.1 = messageName
      · rw [isTextMessage, htexts v hv hname, Bool.and_true]
      · simp [isTextMessage, isMessage, hname]
    have hfields : ∀ v ∈ s.values, (!isTextMessage v) = !isMessage v :=
      fun v hv => congrArg (!·) (hsame v hv)
    rw [body?, body?, fields, fields, List.filter_congr hsame, List.filter_congr hfields]
    exact ⟨rfl, rfl⟩

end Signal

namespace Session

/-- The session with another pool. -/
def swapPool (s : Session σ ω) (pool : Pool) : Session σ ω :=
  { s with router := { s.router with pool } }

/-- The session with another event behind those that it holds. -/
def holding (s : Session σ ω) (e : Event) : Session σ ω := { s with held := s.held ++ [e] }

/-- What is held and what waits in the pool has no part in a dispatch. -/
theorem dispatch_frame (b : SinkBackend σ ω) (s : Session σ ω) (pool : Pool) (held e : Event) :
    (((s.swapPool pool).holding held).dispatch b e).1 =
      ((s.dispatch b e).1.swapPool pool).holding held := by
  obtain ⟨⟨_ | t, pool, captured, recorder⟩, held, w, captures, diagnostics⟩ := s <;> rfl

variable {b : SinkBackend σ ω} {s : Session σ ω} {capacity : Nat}

/-- From a clean pool a new event is taken, whatever was in it before. -/
theorem hold_eq (h : s.router.pool.Clean capacity) (level : Level) (time : Calendar.Timestamp)
    (steps : List Event.Step) :
    ∃ pool, s.hold level time steps =
      (s.swapPool pool).holding ((Event.new level time).run s.router.recorder steps) := by
  refine ⟨(s.router.pool.acquire level time).2, ?_⟩
  have hnew : (s.router.pool.acquire level time).1 = .new level time := h.acquire_fst level time
  have hlast : (s.held ++ [Event.new level time]).modify s.held.length
      (fun e => e.run s.router.recorder steps) =
        s.held ++ [(Event.new level time).run s.router.recorder steps] := by
    rw [List.modify_eq_take_cons_drop (by simp)]
    simp
  simp only [hold, populate, lastPlace, acquire, Router.acquire, hnew, List.length_append,
    List.length_singleton, Nat.add_sub_cancel, hlast]
  rfl

/-- The event that is held behind the others is dispatched and goes back to the pool. -/
theorem send_holding (b : SinkBackend σ ω) (s : Session σ ω) (pool : Pool) (e : Event) :
    ∃ pool', ((s.swapPool pool).holding e).send b s.held.length =
      (s.dispatch b e).1.swapPool pool' := by
  have hplace : ((s.swapPool pool).holding e).held[s.held.length]? = some e :=
    List.getElem?_concat_length
  have herase : (((s.dispatch b e).1.swapPool pool).holding e).held.eraseIdx s.held.length =
      (s.dispatch b e).1.held := by
    change (s.held ++ [e]).eraseIdx s.held.length = s.held
    rw [List.eraseIdx_append_of_length_le (Nat.le_refl _), Nat.sub_self, List.eraseIdx_cons_zero,
      List.append_nil]
  refine ⟨pool.release (((s.swapPool pool).holding e).dispatch b e).2, ?_⟩
  simp only [send, hplace, dispatch_frame, herase]
  rfl

/-- With a clean pool logging an event is dispatching what the operations make of a new
    one. -/
theorem log_eq_dispatch (h : s.router.pool.Clean capacity) (b : SinkBackend σ ω) (level : Level)
    (time : Calendar.Timestamp) (steps : List Event.Step) :
    ∃ pool, s.log b level time steps =
      (s.dispatch b ((Event.new level time).run s.router.recorder steps)).1.swapPool pool := by
  obtain ⟨pool, hhold⟩ := hold_eq h level time steps
  have hlast : ∀ e, ((s.swapPool pool).holding e).lastPlace = s.held.length := by
    intro e
    rw [lastPlace, holding, List.length_append, List.length_singleton, Nat.add_sub_cancel]
    rfl
  simp only [log, hhold, hlast]
  exact send_holding b s pool _

section Forwarding

variable {captured : Trace} {recorder : ErrorRecorder} {w : ω} {plan : List (PlanStep σ)}
  {built : Session σ (ω × List (SinkCall σ))}

/-- Behind any run, a signal of another library whose level is enabled makes the session
    dispatch one event, and nothing else but the pool changes. The body of the event is the
    last text that is named message, and its fields are all other values in their order,
    each with a payload of its own kind. By its name alone a value would be told to be the
    body whatever it is; that is what the event holds if and only if every value that is
    named message is a text. -/
theorem forward_dispatches (b : SinkBackend σ ω)
    (hbuild : (lending captured recorder capacity w).build plan = .ok built) (steps : List Step)
    (signal : Signal) (hother : signal.isOwn = false)
    (henabled : (built.run b.logged steps).router.enabled signal.severity.level = true)
    (time : Calendar.Timestamp) :
    let reached := built.run b.logged steps
    let e : Event := ⟨signal.severity.level, time,
      .plain (signal.body? Signal.isTextMessage) (signal.fields Signal.isTextMessage), none⟩
    (∃ pool, reached.forward b.logged signal time =
      (reached.dispatch b.logged e).1.swapPool pool) ∧
    e.message.body = (signal.body? Signal.isTextMessage).getD "" ∧
    e.message.fields = signal.fields Signal.isTextMessage ∧
    ((e.message.body = (signal.body? Signal.isMessage).getD "" ∧
        e.message.fields = signal.fields Signal.isMessage) ↔
      ∀ v ∈ signal.values, v.1 = Signal.messageName → v.2.text?.isSome = true) := by
  intro reached e
  obtain ⟨hbuilt, -⟩ := follows_of_build hbuild
  have hclean : reached.router.pool.Clean (max capacity 1) := (hbuilt.run b.logged steps).pool
  have hbody : e.message.body = (signal.body? Signal.isTextMessage).getD "" :=
    Record.body_plain _ _
  refine ⟨?_, hbody, rfl, ?_⟩
  · obtain ⟨pool, hlog⟩ :=
      log_eq_dispatch hclean b.logged signal.severity.level time signal.steps
    refine ⟨pool, ?_⟩
    rw [Signal.run_steps] at hlog
    have hgoes : (signal.isOwn || !reached.router.enabled signal.severity.level) = false := by
      rw [hother, henabled]
      rfl
    rw [forward, if_neg (by rw [hgoes]; exact Bool.false_ne_true)]
    exact hlog
  · rw [hbody]
    exact signal.chosen_alike_iff

/-- One group, which writes the body of an event and the names of its fields. -/
def listingPlan : List (PlanStep Unit) :=
  [.encoder (.ofText fun e => Text.join " " (e.message.body :: e.message.fields.map Field.key)),
    .sinks [()]]

/-- Of two texts that are named message the last one is the body, also behind a signal
    that was forwarded before. -/
theorem forward_dispatches_texts :
    let signal : Signal := ⟨.warn, "app",
      [("message", .text "first"), ("attempt", .nat 3), ("message", .described "second")]⟩
    let e : Event := ⟨.warning, default, .plain (some "second") [.make "attempt" (.nat64 3)], none⟩
    signal.isOwn = false ∧
    ∃ built, (lending [] (fun _ r => r) 0 Memory.empty).build listingPlan = .ok built ∧
      let reached := built.run Memory.backend.logged
        [.acquire .error default, .populate 0 [.withMessage "past"], .send 0]
      reached.router.enabled .warning = true ∧
      (∃ pool, reached.forward Memory.backend.logged signal default =
        (reached.dispatch Memory.backend.logged e).1.swapPool pool) ∧
      e.message.body = (signal.body? Signal.isMessage).getD "" ∧
      e.message.fields = signal.fields Signal.isMessage := by
  intro signal e
  have hother : signal.isOwn = false := by decide
  have hbuild : ∃ built,
      (lending [] (fun _ r => r) 0 Memory.empty).build listingPlan = .ok built ∧
      (built.run Memory.backend.logged
        [.acquire .error default, .populate 0 [.withMessage "past"], .send 0]).router.enabled
          .warning = true := ⟨_, rfl, rfl⟩
  obtain ⟨built, hbuilt, henabled⟩ := hbuild
  obtain ⟨hforward, -, -, halike⟩ := forward_dispatches Memory.backend hbuilt
    [.acquire .error default, .populate 0 [.withMessage "past"], .send 0] signal hother henabled
    default
  refine ⟨hother, built, hbuilt, henabled, hforward, halike.2 ?_⟩
  simp [signal, SignalValue.text?, Signal.messageName]

/-- A number that is named message is told to be the body by its name, and is written as a
    field behind an empty body. -/
theorem forward_number :
    let signal : Signal := ⟨.warn, "app", [("message", .int 3), ("attempt", .nat 4)]⟩
    signal.isOwn = false ∧ signal.body? Signal.isMessage = some "3" ∧
    signal.fields Signal.isMessage = [.make "attempt" (.nat64 4)] ∧
    ∃ built, (lending [] (fun _ r => r) 0 Memory.empty).build listingPlan = .ok built ∧
      built.router.enabled .warning = true ∧
      (built.forward Memory.backend.logged signal default).written =
        [((), Text.Utf8.encode " message attempt")] :=
  ⟨rfl, by decide +kernel, rfl, _, rfl, rfl, by decide +kernel⟩

end Forwarding

end Session

end Logbook
