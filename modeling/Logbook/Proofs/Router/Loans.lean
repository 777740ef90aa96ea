import Logbook.Proofs.Event.Pool
import Logbook.Proofs.Router.FanOut

/-!
# Events on loan

A program borrows events from the pool, works on them and gives them back. What it does
can be told without any pool: a `Loan` is the level and the time that an event was taken
with, together with the operations since, and a `Ledger` is the loans that a program has
at a time. The events that a session holds are always those that their loans make of new
events (`Session.Follows.run`), so what is written for an event depends on its own loan and
on nothing that was logged before (`Session.run_loans`).
-/

namespace Logbook

/-- An event on loan from the pool: the level and the time that it was taken with, and
    what was done to it since. -/
structure Loan where
  level : Level
  time : Calendar.Timestamp
  steps : List Event.Step

namespace Loan

/-- What the operations make of a new event. -/
def event (recorder : ErrorRecorder) (l : Loan) : Event :=
  (Event.new l.level l.time).run recorder l.steps

/-- The loan after further operations. -/
def extend (l : Loan) (steps : List Event.Step) : Loan := { l with steps := l.steps ++ steps }

theorem event_extend (recorder : ErrorRecorder) (steps : List Event.Step) (l : Loan) :
    (l.extend steps).event recorder = (l.event recorder).run recorder steps :=
  List.foldl_append

end Loan

/-- The loans of a program in their order, and the frames that a capture finds where the
    program is. -/
structure Ledger where
  captured : Trace
  loans : List Loan

namespace Ledger

def apply (l : Ledger) : Session.Step → Ledger
  | .proceed captured => { l with captured }
  | .acquire level time => { l with loans := l.loans ++ [⟨level, time, []⟩] }
  | .populate place steps => { l with loans := l.loans.modify place (·.extend steps) }
  | .send place | .drop place => { l with loans := l.loans.eraseIdx place }
  | .dispatch _ | .flush => l

def run (l : Ledger) (steps : List Session.Step) : Ledger := steps.foldl apply l

/-- The event that a step dispatches: that of a loan, or one that was never on loan. -/
def outgoing? (l : Ledger) (recorder : ErrorRecorder) : Session.Step → Option Event
  | .send place => l.loans[place]?.map (Loan.event recorder)
  | .dispatch e => some e
  | _ => none

/-- The events that some steps dispatch, each with the frames that a capture finds
    there. -/
def outgoing (l : Ledger) (recorder : ErrorRecorder) : List Session.Step → List (Trace × Event)
  | [] => []
  | step :: rest =>
    (l.outgoing? recorder step).toList.map (l.captured, ·) ++ (l.apply step).outgoing recorder rest

end Ledger

theorem map_modify {α β : Type} {f : α → β} {g : α → α} {g' : β → β}
    (h : ∀ a, f (g a) = g' (f a)) (xs : List α) (place : Nat) :
    (xs.modify place g).map f = (xs.map f).modify place g' := by
  apply List.ext_getElem?
  intro i
  rw [List.getElem?_map, List.getElem?_modify, List.getElem?_modify, List.getElem?_map]
  cases xs[i]? with
  | none => rfl
  | some a =>
    by_cases hi : place = i
    · simp [hi, h]
    · simp [hi]

theorem map_eraseIdx {α β : Type} (f : α → β) (xs : List α) (place : Nat) :
    (xs.eraseIdx place).map f = (xs.map f).eraseIdx place := by
  simp only [List.eraseIdx_eq_take_drop_succ, List.map_append, List.map_take, List.map_drop]

namespace Session

/-- A session whose events are those of a ledger, and whose pool is clean. -/
structure Follows (s : Session σ ω) (l : Ledger) (recorder : ErrorRecorder) (capacity : Nat) :
    Prop where
  recorder_eq : s.router.recorder = recorder
  captured_eq : s.router.captured = l.captured
  held_eq : s.held = l.loans.map (Loan.event recorder)
  pool : s.router.pool.Clean capacity

variable {b : SinkBackend σ ω} {s : Session σ ω} {l : Ledger} {recorder : ErrorRecorder}
  {capacity : Nat}

namespace Follows

/-- Only the table of the router changes with what is sent to sinks. -/
theorem of_table (h : s.Follows l recorder capacity) {s' : Session σ ω} {table : Option (Table σ)}
    (hrouter : s'.router = { s.router with table }) (hheld : s'.held = s.held) :
    s'.Follows l recorder capacity := by
  obtain ⟨hrecorder, hcaptured, hloans, hpool⟩ := h
  refine ⟨?_, ?_, hheld.trans hloans, ?_⟩ <;> rw [hrouter]
  · exact hrecorder
  · exact hcaptured
  · exact hpool

theorem dispatch (h : s.Follows l recorder capacity) (b : SinkBackend σ ω) (e : Event) :
    (s.dispatch b e).1.Follows l recorder capacity := by
  have hrouter : ∃ table, (s.dispatch b e).1.router = { s.router with table } := by
    obtain ⟨⟨_ | t, pool, captured, recorder⟩, held, w, captures, diagnostics⟩ := s
    · exact ⟨none, rfl⟩
    · exact ⟨_, rfl⟩
  obtain ⟨table, htable⟩ := hrouter
  exact h.of_table htable rfl

theorem flush (h : s.Follows l recorder capacity) (b : SinkBackend σ ω) :
    (s.flush b).1.Follows l recorder capacity := by
  have hrouter : (s.flush b).1.router =
      s.router.withGroups (flushGroups b 0 s.router.groups s.world).groups :=
    congrArg Prod.fst (Router.flush_eq b s.router s.world).1
  exact h.of_table hrouter rfl

theorem giveBack (h : s.Follows l recorder capacity) (place : Nat) (e : Event) :
    Follows { s with held := s.held.eraseIdx place, router := s.router.release e }
      { l with loans := l.loans.eraseIdx place } recorder capacity := by
  refine ⟨h.recorder_eq, h.captured_eq, ?_, h.pool.release e⟩
  rw [map_eraseIdx, ← h.held_eq]

theorem held_getElem? (h : s.Follows l recorder capacity) (place : Nat) :
    s.held[place]? = l.loans[place]?.map (Loan.event recorder) := by
  rw [h.held_eq, List.getElem?_map]

/-- A step does to the events that are held what it does to the loans. -/
theorem apply (h : s.Follows l recorder capacity) (b : SinkBackend σ ω) (step : Step) :
    (s.apply b step).Follows (l.apply step) recorder capacity := by
  have hreturn : ∀ place, s.held[place]? = none →
      s.Follows { l with loans := l.loans.eraseIdx place } recorder capacity := by
    intro place hnone
    rw [h.held_getElem?, Option.map_eq_none_iff, List.getElem?_eq_none_iff] at hnone
    rw [List.eraseIdx_of_length_le hnone]
    exact h
  cases step with
  | proceed captured => exact ⟨h.recorder_eq, rfl, h.held_eq, h.pool⟩
  | acquire level time =>
    -- whatever event the pool gives, it is a new one
    have hnew : (s.router.acquire level time).1 = .new level time := h.pool.acquire_fst level time
    refine ⟨h.recorder_eq, h.captured_eq, ?_, h.pool.acquire_snd level time⟩
    change s.held ++ [(s.router.acquire level time).1] =
      (l.loans ++ [Loan.mk level time []]).map (Loan.event recorder)
    rw [hnew, h.held_eq, List.map_append]
    rfl
  | populate place steps =>
    refine ⟨h.recorder_eq, h.captured_eq, ?_, h.pool⟩
    change s.held.modify place (fun e => e.run s.router.recorder steps) =
      (l.loans.modify place (·.extend steps)).map (Loan.event recorder)
    rw [h.held_eq, h.recorder_eq]
    exact (map_modify (Loan.event_extend recorder steps) l.loans place).symm
  | send place =>
    simp only [Session.apply, Session.send]
    cases hplace : s.held[place]? with
    | none => exact hreturn place hplace
    | some e => exact (h.dispatch b e).giveBack place _
  | drop place =>
    simp only [Session.apply, Session.drop]
    cases hplace : s.held[place]? with
    | none => exact hreturn place hplace
    | some e => exact h.giveBack place e
  | dispatch e => exact h.dispatch b e
  | flush => exact h.flush b

theorem run (h : s.Follows l recorder capacity) (b : SinkBackend σ ω) (steps : List Step) :
    (s.run b steps).Follows (l.run steps) recorder capacity := by
  induction steps generalizing s l with
  | nil => exact h
  | cons step rest ih => exact ih (h.apply b step)

theorem dispatched?_eq (h : s.Follows l recorder capacity) (step : Step) :
    s.dispatched? step = l.outgoing? recorder step := by
  cases step with
  | send place => exact h.held_getElem? place
  | _ => rfl

end Follows

theorem build_frame {s built : Session σ ω} {plan : List (PlanStep σ)}
    (h : s.build plan = .ok built) :
    ∃ table diagnostics,
      built = { s with router := { s.router with table }, diagnostics } := by
  unfold build Router.build Router.install at h
  split at h
  · cases h
  · split at h
    · cases h
    · cases h
      exact ⟨_, _, rfl⟩

variable {groups : List (Group σ)}

theorem Follows.writes_eq (h : s.Follows l recorder capacity) (step : Step) :
    s.writes groups step = (l.outgoing? recorder step).elim [] (mailing l.captured [] groups) := by
  rw [writes, posted, h.dispatched?_eq, h.captured_eq]
  cases l.outgoing? recorder step <;> rfl

/-- Behind a run the sinks have got what the ledger tells. -/
theorem Follows.written_run {s : Session σ (ω × List (SinkCall σ))}
    (h : s.Follows l recorder capacity) (hserves : s.router.Serves groups) (b : SinkBackend σ ω)
    (steps : List Step) :
    (s.run b.logged steps).written =
      s.written ++ (l.outgoing recorder steps).flatMap fun x => mailing x.1 [] groups x.2 := by
  induction steps generalizing s l with
  | nil => exact (List.append_nil _).symm
  | cons step rest ih =>
    have hrest := ih (h.apply b.logged step) (apply_moves hserves b.logged step).2
    have hstep : (l.outgoing? recorder step).elim [] (mailing l.captured [] groups) =
        ((l.outgoing? recorder step).toList.map (l.captured, ·)).flatMap
          fun x => mailing x.1 [] groups x.2 := by
      cases l.outgoing? recorder step with
      | none => rfl
      | some e => exact (List.append_nil _).symm
    rw [Ledger.outgoing, List.flatMap_append, ← hstep, ← h.writes_eq step,
      ← List.append_assoc, ← written_apply hserves]
    exact hrest

section Borrowing

variable {captured : Trace} {w : ω} {plan : List (PlanStep σ)}
  {built : Session σ (ω × List (SinkCall σ))}

/-- A session at its beginning, with a pool of the given capacity and a log. -/
def lending (captured : Trace) (recorder : ErrorRecorder) (capacity : Nat) (w : ω) :
    Session σ (ω × List (SinkCall σ)) :=
  start ((Router.new captured recorder).withPool capacity) (w, [])

theorem follows_of_build (h : (lending captured recorder capacity w).build plan = .ok built) :
    built.Follows ⟨captured, []⟩ recorder (max capacity 1) ∧ built.written = [] := by
  obtain ⟨table, diagnostics, rfl⟩ := build_frame h
  exact ⟨⟨rfl, rfl, rfl, Pool.clean_new capacity⟩, rfl⟩

theorem written_of_build (h : (lending captured recorder capacity w).build plan = .ok built)
    (b : SinkBackend σ ω) (steps : List Step) :
    (built.run b.logged steps).written =
      ((⟨captured, []⟩ : Ledger).outgoing recorder steps).flatMap fun x =>
        mailing x.1 [] (Plan.ofSteps plan).finish x.2 := by
  obtain ⟨hfollows, hwritten⟩ := follows_of_build h
  obtain ⟨hserves, -, -⟩ := accounted_of_build h
  rw [hfollows.written_run hserves b steps, hwritten, List.nil_append]

/-- Behind any run the events that are held are those that their own loans make of new
    events, so an event is written as if no other one had been before. What is written in
    the whole run does not depend on the capacity of the pool either. In the pool, and in
    any pool that is used on its own, blank events wait, and no more than the capacity. -/
theorem run_loans (b : SinkBackend σ ω)
    (hbuild : (lending captured recorder capacity w).build plan = .ok built) (steps : List Step) :
    let reached := built.run b.logged steps
    let ledger := (⟨captured, []⟩ : Ledger).run steps
    let groups := (Plan.ofSteps plan).finish
    reached.held = ledger.loans.map (Loan.event recorder) ∧
    (∀ place, (reached.apply b.logged (.send place)).written =
      reached.written ++ (ledger.loans[place]?.map (Loan.event recorder)).elim []
        (mailing ledger.captured [] groups)) ∧
    (∀ other built', (lending captured recorder other w).build plan = .ok built' →
      (built'.run b.logged steps).written = reached.written) ∧
    reached.router.pool.Clean (max capacity 1) ∧
    ∀ uses, ((Pool.new capacity).run uses).Clean (max capacity 1) := by
  intro reached ledger groups
  obtain ⟨hbuilt, -⟩ := follows_of_build hbuild
  obtain ⟨hserves, -, haccount⟩ := accounted_of_build hbuild
  have hfollows : reached.Follows ledger recorder (max capacity 1) := hbuilt.run b.logged steps
  have hreached : reached.router.Serves groups := (haccount.run hserves b.logged steps).2
  refine ⟨hfollows.held_eq, ?_, ?_, hfollows.pool, (Pool.clean_new capacity).run⟩
  · intro place
    rw [written_apply hreached, hfollows.writes_eq]
    rfl
  · intro other built' hother
    rw [written_of_build hother, written_of_build hbuild]

/-- One group, which writes the level of an event and the number of its messages. -/
def countingPlan : List (PlanStep Unit) :=
  [.encoder fun e => [e.level.value.toUInt8, e.message.messages.length.toUInt8], .sinks [()]]

/-- The second event is the first one, used again, and has no message of it. -/
theorem run_loans_reused :
    ∃ built, (lending [] (fun _ r => r) 0 Memory.empty).build countingPlan = .ok built ∧
      let reached := built.run Memory.backend.logged
        [.acquire .error default, .populate 0 [.withMessage "first"], .send 0,
          .acquire .info default]
      reached.held = [.new .info default] ∧ reached.written = [((), [3, 1])] ∧
      (reached.apply Memory.backend.logged (.send 0)).written = [((), [3, 1]), ((), [6, 0])] := by
  have hbuild :
      ∃ built, (lending [] (fun _ r => r) 0 Memory.empty).build countingPlan = .ok built := ⟨_, rfl⟩
  obtain ⟨built, hbuilt⟩ := hbuild
  have hrun := run_loans Memory.backend hbuilt
    [.acquire .error default, .populate 0 [.withMessage "first"], .send 0, .acquire .info default]
  have hwritten := written_of_build hbuilt Memory.backend
    [.acquire .error default, .populate 0 [.withMessage "first"], .send 0, .acquire .info default]
  refine ⟨built, hbuilt, hrun.1, hwritten, ?_⟩
  rw [hrun.2.1 0, hwritten]
  rfl

end Borrowing

end Session

end Logbook
