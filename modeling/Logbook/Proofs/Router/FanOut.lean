import Logbook.Proofs.Router.History
import Logbook.Sink.Memory

/-!
# Fan-out

A step writes the parcels that its event makes for the groups of the plan, and
nothing else (`Session.run_written`). These depend on the groups, on the event and on
the frames that a capture finds, so the sinks get the same octets in the same order
whatever became of the writes and flushes before. `Session.enabled_exact_iff`
compares the levels that a router says are enabled with those that are written.
-/

namespace Logbook

section Bare

theorem addressSlots_map (f : Slot σ → Slot σ) (group index : Nat) (slots : List (Slot σ)) :
    addressSlots group index (slots.map f) =
      (addressSlots group index slots).map fun x => (x.1, f x.2) := by
  induction slots generalizing index with
  | nil => rfl
  | cons slot rest ih => rw [List.map_cons, addressSlots_cons, ih, addressSlots_cons, List.map_cons]

theorem Event.behind_bare (e : Event) (captured : Trace) (past : List (Group σ)) :
    e.behind captured (past.map Group.bare) = e.behind captured past := by
  unfold behind
  rw [List.any_map]
  have hgroup : ∀ g : Group σ, g.bare.isReached e.level = g.isReached e.level := fun g => by
    simp [Group.isReached, Group.bare]
  simp only [Function.comp_def, hgroup]
  rfl

theorem Group.parcels_bare (g : Group σ) (index : Nat) (e : Event) :
    g.bare.parcels index e = g.parcels index e := by
  simp [parcels, bare, addressSlots_map, Slot.new, Function.comp_def]

/-- The parcels do not depend on what slots hold. -/
theorem parcels_bare (captured : Trace) (past groups : List (Group σ)) (e : Event) :
    parcels captured (past.map Group.bare) (groups.map Group.bare) e =
      parcels captured past groups e := by
  induction groups generalizing past with
  | nil => rfl
  | cons g rest ih =>
    have hpast : past.map Group.bare ++ [g.bare] = (past ++ [g]).map Group.bare := by simp
    rw [List.map_cons, parcels_cons, parcels_cons, hpast, ih, Event.behind_bare,
      Group.parcels_bare, List.length_map]

end Bare

theorem written_map_flushedWell (xs : List (Address × Slot σ)) :
    ((xs.map flushedWell).filterMap Visit.call?).filterMap SinkCall.written? = [] := by
  induction xs with
  | nil => rfl
  | cons x xs ih => exact ih

/-- A flush writes nothing. -/
theorem FlushCourse.written_nil {slots slots' : List (Address × Slot σ)}
    {visits : List (Visit σ)} {failure : Option Failure}
    (h : FlushCourse slots slots' visits failure) :
    (visits.filterMap Visit.call?).filterMap SinkCall.written? = [] := by
  cases h with
  | finished _ _ hvisits => rw [hvisits, written_map_flushedWell]
  | reported _ _ _ _ hvisits | failed _ _ _ _ hvisits =>
    -- the visit at the end is a report or the flush that failed
    rw [hvisits, List.filterMap_append, List.filterMap_append, written_map_flushedWell]
    rfl

namespace Session

/-- All that was written so far, and the sinks that got it. -/
def written (s : Session σ (ω × List (SinkCall σ))) : List (σ × List UInt8) :=
  s.world.2.filterMap SinkCall.written?

/-- What a step writes if the router has the given groups. -/
def writes (s : Session σ ω) (groups : List (Group σ)) (step : Step) : List (σ × List UInt8) :=
  (s.posted groups step).map fun p => (p.sink, p.bytes)

theorem posted_bare (s : Session σ ω) (groups : List (Group σ)) (step : Step) :
    s.posted (groups.map Group.bare) step = s.posted groups step := by
  unfold posted
  cases s.dispatched? step with
  | none => rfl
  | some e => exact parcels_bare s.router.captured [] groups e

variable {groups : List (Group σ)} {s : Session σ (ω × List (SinkCall σ))}

/-- A step writes the parcels that it sends off. -/
theorem written_apply (h : s.router.Serves groups) (b : SinkBackend σ ω) (step : Step) :
    (s.apply b.logged step).written = s.written ++ s.writes groups step := by
  obtain ⟨⟨_, hwalk, -⟩, -⟩ := apply_moves h b.logged step
  rw [written, hwalk.log_eq, List.filterMap_append, written, writes, ← h.bare, posted_bare]
  congr 1
  cases step with
  | flush => exact (b.logged.flushAll_course s.slots s.world).written_nil
  | _ => exact b.logged.written_writeAll _ _

/-- A dispatch yields the event as the last group got it. -/
theorem dispatch_event {s : Session σ ω} (h : s.router.Serves groups) (b : SinkBackend σ ω)
    (e : Event) : (s.dispatch b e).2 = e.behind s.router.captured groups := by
  simp only [dispatch, h.dispatch_eq]
  rw [← h.bare, Event.behind_bare]
  exact (deliver_delivers b s.router.captured [] s.router.groups e s.world).event

/-- Two sessions that hold the same events and whose routers differ at most in their
    tables. -/
structure Alike (s : Session σ ω) (s' : Session σ ω') : Prop where
  held : s'.held = s.held
  pool : s'.router.pool = s.router.pool
  captured : s'.router.captured = s.router.captured
  recorder : s'.router.recorder = s.router.recorder

namespace Alike

variable {s : Session σ ω} {s' : Session σ ω'}

theorem dispatch (h : Alike s s') (hs : s.router.Serves groups) (hs' : s'.router.Serves groups)
    (b : SinkBackend σ ω) (b' : SinkBackend σ ω') (e : Event) :
    Alike (s.dispatch b e).1 (s'.dispatch b' e).1 ∧ (s'.dispatch b' e).2 = (s.dispatch b e).2 := by
  refine ⟨?_, ?_⟩
  · simp only [Session.dispatch, hs.dispatch_eq, hs'.dispatch_eq]
    exact ⟨h.held, h.pool, h.captured, h.recorder⟩
  · rw [dispatch_event hs, dispatch_event hs', h.captured]

/-- The sinks have no say in what a step does to the events. -/
theorem apply (h : Alike s s') (hs : s.router.Serves groups) (hs' : s'.router.Serves groups)
    (b : SinkBackend σ ω) (b' : SinkBackend σ ω') (step : Step) :
    Alike (s.apply b step) (s'.apply b' step) := by
  have hheld := h.held
  have hpool := h.pool
  cases step with
  | proceed captured => exact ⟨hheld, hpool, rfl, h.recorder⟩
  | acquire level time =>
    simp only [Session.apply, acquire, Router.acquire, hheld, hpool]
    exact ⟨rfl, rfl, h.captured, h.recorder⟩
  | populate place steps =>
    simp only [Session.apply, populate, hheld, h.recorder]
    exact ⟨rfl, hpool, h.captured, h.recorder⟩
  | send place =>
    simp only [Session.apply, send, hheld]
    cases s.held[place]? with
    | none => exact h
    | some e =>
      obtain ⟨⟨hheld, hpool, hcaptured, hrecorder⟩, hevent⟩ := h.dispatch hs hs' b b' e
      simp only [Router.release, hheld, hpool, hevent]
      exact ⟨rfl, rfl, hcaptured, hrecorder⟩
  | drop place =>
    simp only [Session.apply, drop, hheld]
    cases s.held[place]? with
    | none => exact h
    | some e =>
      simp only [Router.release, hpool]
      exact ⟨rfl, rfl, h.captured, h.recorder⟩
  | dispatch e => exact (h.dispatch hs hs' b b' e).1
  | flush =>
    simp only [Session.apply, flush, (Router.flush_eq _ _ _).1]
    exact ⟨hheld, hpool, h.captured, h.recorder⟩

theorem writes_eq (h : Alike s s') (groups : List (Group σ)) (step : Step) :
    s'.writes groups step = s.writes groups step := by
  have hdispatched : s'.dispatched? step = s.dispatched? step := by
    cases step with
    | send place => exact congrArg (·[place]?) h.held
    | _ => rfl
  rw [writes, writes, posted, posted, hdispatched, h.captured]

end Alike

/-- Alike sessions write the same, whatever becomes of it. -/
theorem Alike.written_run {s : Session σ (ω × List (SinkCall σ))}
    {s' : Session σ (ω' × List (SinkCall σ))} (h : Alike s s') (hs : s.router.Serves groups)
    (hs' : s'.router.Serves groups) (hwritten : s'.written = s.written)
    (b : SinkBackend σ ω) (b' : SinkBackend σ ω') (steps : List Step) :
    (s'.run b'.logged steps).written = (s.run b.logged steps).written := by
  induction steps generalizing s s' with
  | nil => exact hwritten
  | cons step rest ih =>
    -- alike sessions write the same in the next step and stay alike
    refine ih (h.apply hs hs' b.logged b'.logged step) (apply_moves hs _ step).2
      (apply_moves hs' _ step).2 ?_
    rw [written_apply hs, written_apply hs', hwritten, h.writes_eq]

/-- After any run each step writes exactly the parcels that its event makes for the
    groups of the plan, and the whole run writes the same to any other sinks. -/
theorem run_written (b : SinkBackend σ ω) {s built : Session σ (ω × List (SinkCall σ))}
    {plan : List (PlanStep σ)} (hbuild : s.build plan = .ok built) (steps : List Step) :
    (∀ step, ((built.run b.logged steps).apply b.logged step).written =
      (built.run b.logged steps).written ++
        (built.run b.logged steps).writes (Plan.ofSteps plan).finish step) ∧
    ∀ {ω' : Type} (b' : SinkBackend σ ω') (w' : ω'),
      ({ built with world := (w', built.world.2) }.run b'.logged steps).written =
        (built.run b.logged steps).written := by
  obtain ⟨hserves, -, haccount⟩ := accounted_of_build hbuild
  refine ⟨written_apply (haccount.run hserves b.logged steps).2 b, ?_⟩
  intro ω' b' w'
  have halike : Alike built { built with world := (w', built.world.2) } := ⟨rfl, rfl, rfl, rfl⟩
  exact halike.written_run hserves hserves rfl b b' steps

/-- A group without sinks, and behind it one that is stricter. -/
def hollowPlan : List (PlanStep Unit) :=
  [.encoder fun _ => [], .encoder fun e => [e.level.value.toUInt8], .threshold .error,
    .sinks [(), ()]]

/-- A session without destinations, whose sink is a buffer. -/
def inMemory : Session Unit (Memory × List (SinkCall Unit)) :=
  start (.new [] fun _ r => r) (.empty, [])

theorem run_written_hollow :
    ∃ built, inMemory.build hollowPlan = .ok built ∧
      ((built.run Memory.backend.logged [.dispatch (.new .info default), .flush]).apply
        Memory.backend.logged (.dispatch (.new .alert default))).written =
          [((), [1]), ((), [1])] := by
  have hbuild : ∃ built, inMemory.build hollowPlan = .ok built ∧
      (built.run Memory.backend.logged [.dispatch (.new .info default), .flush]).written = [] ∧
      (built.run Memory.backend.logged [.dispatch (.new .info default), .flush]).writes
        (Plan.ofSteps hollowPlan).finish (.dispatch (.new .alert default)) =
          [((), [1]), ((), [1])] := ⟨_, rfl, rfl, rfl⟩
  obtain ⟨built, hbuilt, hbefore, hwrites⟩ := hbuild
  refine ⟨built, hbuilt, ?_⟩
  rw [(run_written Memory.backend hbuilt _).1, hbefore, hwrites]
  rfl

/-- An event is written if it reaches a group with a sink. -/
theorem written_dispatch_ne (h : s.router.Serves groups) (b : SinkBackend σ ω) (e : Event) :
    (s.dispatch b.logged e).1.written ≠ s.written ↔
      ∃ g ∈ groups, g.slots ≠ [] ∧ e.level.passes g.threshold = true := by
  have hwritten : (s.dispatch b.logged e).1.written = s.written ++ s.writes groups (.dispatch e) :=
    written_apply h b (.dispatch e)
  have hwrites : s.writes groups (.dispatch e) = [] ↔ ∀ g ∈ groups, g.isReached e.level = false :=
    List.map_eq_nil_iff.trans (parcels_eq_nil_iff s.router.captured [] groups e)
  rw [hwritten, ne_eq, List.append_right_eq_self, hwrites]
  simp [Group.isReached, and_comm]

/-- After any run a level is enabled if it passes the threshold of a group, and an event
    is written if it passes that of a group with sinks. So the levels that are enabled
    are those that are written if and only if one of the loosest groups has a sink. -/
theorem enabled_exact_iff (b : SinkBackend σ ω) {s built : Session σ (ω × List (SinkCall σ))}
    {plan : List (PlanStep σ)} (hbuild : s.build plan = .ok built) (steps : List Step) :
    let groups := (Plan.ofSteps plan).finish
    let reached := built.run b.logged steps
    (∀ level, reached.router.enabled level = true ↔
      ∃ g ∈ groups, level.passes g.threshold = true) ∧
    (∀ e, (reached.dispatch b.logged e).1.written ≠ reached.written ↔
      ∃ g ∈ groups, g.slots ≠ [] ∧ e.level.passes g.threshold = true) ∧
    ((∀ e : Event, reached.router.enabled e.level = true ↔
        (reached.dispatch b.logged e).1.written ≠ reached.written) ↔
      ∃ g ∈ groups, g.slots ≠ [] ∧ g.threshold = (Table.ofGroups groups).threshold) := by
  intro groups reached
  obtain ⟨hbuilt, -, haccount⟩ := accounted_of_build hbuild
  have hserves : reached.router.Serves groups := (haccount.run hbuilt b.logged steps).2
  have henabled : ∀ level, reached.router.enabled level = true ↔
      ∃ g ∈ groups, level.passes g.threshold = true := by
    intro level
    rw [hserves.enabled_eq, List.any_eq_true]
  have hwritten := written_dispatch_ne hserves b
  refine ⟨henabled, hwritten, ?_⟩
  rw [← Table.threshold_exact_iff]
  constructor
  · intro hexact level hpasses
    rw [Table.passes_threshold level hserves.ne_nil, ← hserves.enabled_eq] at hpasses
    exact (hwritten (.new level default)).1 ((hexact (.new level default)).1 hpasses)
  · intro hexact e
    rw [hwritten]
    constructor
    · intro hlevel
      rw [hserves.enabled_eq, ← Table.passes_threshold _ hserves.ne_nil] at hlevel
      exact hexact e.level hlevel
    · rintro ⟨g, hg, -, hpasses⟩
      exact (henabled e.level).2 ⟨g, hg, hpasses⟩

/-- One group with a sink is loosest, so what is enabled is what is written. -/
theorem enabled_exact_iff_single :
    ∃ built, inMemory.build [.sinks [()]] = .ok built ∧
      ∀ e : Event, built.router.enabled e.level = true ↔
        (built.dispatch Memory.backend.logged e).1.written ≠ built.written := by
  have hbuild : ∃ built, inMemory.build [.sinks [()]] = .ok built := ⟨_, rfl⟩
  obtain ⟨built, hbuilt⟩ := hbuild
  refine ⟨built, hbuilt, (enabled_exact_iff Memory.backend hbuilt []).2.2.2 ?_⟩
  exact ⟨_, List.mem_singleton.2 rfl, List.cons_ne_nil _ _, rfl⟩

/-- The group without sinks makes a level be enabled that is not written. -/
theorem enabled_hollow :
    ∃ built, inMemory.build hollowPlan = .ok built ∧
      built.router.enabled .info = true ∧
      (built.dispatch Memory.backend.logged (.new .info default)).1.written = built.written :=
  ⟨_, rfl, rfl, rfl⟩

end Session

end Logbook
