import Logbook.Proofs.Router.History

/-!
# Failures of writes

What becomes of a failed write. A slot holds the first failure since its last
report, so a failure that was stored is either held or was reported, and it was
reported once (`Session.run_failures`). A flush visits the slots in their order and
comes to the first failure, held or its own. So a failure that is held waits for
the sinks before it: it is reported if these can be flushed, and never if one of
them never can (`Session.flush_reports_iff`).
-/

namespace Logbook

namespace Session

/-- What the visits of a run account for, in a session that was built by a plan. -/
structure FailureAccount (b : SinkBackend σ (ω × List (SinkCall σ))) (plan : List (PlanStep σ))
    (built : Session σ (ω × List (SinkCall σ))) (history : List (Visit σ))
    (reached : Session σ (ω × List (SinkCall σ))) : Prop where
  /-- The calls among the visits are those that were made. -/
  calls : reached.world.2 = built.world.2 ++ history.filterMap Visit.call?
  /-- The sinks are those of the plan. -/
  sinks : (reached.slots.map fun x => (x.1, x.2.sink)) =
    (addressGroups 0 (Plan.ofSteps plan).finish).map fun x => (x.1, x.2.sink)
  /-- A slot holds the first failure of a write since its last report. -/
  held : Holding history reached.slots
  /-- A write is reported if its failure is stored, and a flush if it failed. -/
  diagnostics : reached.diagnostics = built.diagnostics ++ visitDiagnostics [] history
  /-- What was stored was reported, in this order, or is still held. -/
  balance : ∀ a, storedFailures a [] history =
    reportedFailures a history ++ (heldFailure a history).toList
  /-- A flush goes along the slots up to the first failure. -/
  course : FlushCourse reached.slots (reached.flush b).1.slots (reached.visits b .flush)
    (reached.flush b).2
  /-- What a flush visits is what it calls and what it reports. -/
  flushed : (reached.flush b).1.world.2 =
      reached.world.2 ++ (reached.visits b .flush).filterMap Visit.call? ∧
    (reached.flush b).1.diagnostics =
      reached.diagnostics ++ visitDiagnostics history (reached.visits b .flush)
  /-- A flush comes to no failure if none is held and every sink was flushed. -/
  finished : (reached.flush b).2 = none ↔
    (∀ x ∈ reached.slots, x.2.failure = none) ∧
      reached.visits b .flush = reached.slots.map flushedWell

/-- No failure that was stored is lost or reported twice, whatever the sinks do. -/
theorem run_failures (b : SinkBackend σ ω) {s built : Session σ (ω × List (SinkCall σ))}
    {plan : List (PlanStep σ)} (hbuild : s.build plan = .ok built) (steps : List Step) :
    FailureAccount b.logged plan built (built.history b.logged steps)
      (built.run b.logged steps) := by
  obtain ⟨hserves, hslots, haccount⟩ := accounted_of_build hbuild
  obtain ⟨⟨hsinks, hheld, hcoherent, hdiagnostics⟩, -⟩ := haccount.run hserves b.logged steps
  obtain ⟨_, -, hleft, -, -, hfailure⟩ := flush_leaves b.logged (built.run b.logged steps)
  obtain ⟨_, hwalk, hreported⟩ := flush_moves b.logged (built.run b.logged steps)
  obtain ⟨-, -, hreports⟩ := hwalk.account (nodup_addresses 0 _) hheld
  have hcourse := b.logged.flushAll_course (built.run b.logged steps).slots
    (built.run b.logged steps).world
  rw [hleft, hfailure] at hcourse
  exact
    { calls := log_run hserves b steps
      sinks := by rw [← hslots]; exact hsinks
      held := hheld
      diagnostics := hdiagnostics
      balance := hcoherent.stored_eq
      course := hcourse
      flushed := ⟨hwalk.log_eq, by rw [hreported, hreports]; rfl⟩
      finished := hcourse.eq_none_iff }

end Session

/-- Sinks that fail: one refuses what is written to it, the other cannot be flushed. -/
inductive FaultySink where
  | refusing
  | stuck

namespace FaultySink

def refused : Failure := ⟨.other, "refused"⟩

def unflushed : Failure := ⟨.brokenPipe, "stuck"⟩

def backend : SinkBackend FaultySink Unit where
  write
    | refusing, _, w => (some refused, w)
    | stuck, _, w => (none, w)
  flush
    | refusing, w => (none, w)
    | stuck, w => (some unflushed, w)

/-- One group, with the sink in front that cannot be flushed. -/
def plan : List (PlanStep FaultySink) := [.encoder fun _ => [], .sinks [stuck, refusing]]

/-- A session without destinations. -/
def session {ω : Type} (w : ω) : Session FaultySink ω := .start (.new [] fun _ r => r) w

/-- An event is written and the sinks are flushed. -/
def steps : List Session.Step := [.dispatch (.new .error default), .flush]

end FaultySink

namespace Session

open FaultySink in
theorem run_failures_faulty :
    ∃ built, (session ((), [])).build plan = .ok built ∧
      (built.run backend.logged steps).slots =
        [(⟨0, 0⟩, ⟨stuck, none⟩), (⟨0, 1⟩, ⟨refusing, some refused⟩)] ∧
      FailureAccount backend.logged plan built (built.history backend.logged steps)
        (built.run backend.logged steps) := by
  have hbuild : ∃ built, (session ((), [])).build plan = .ok built ∧
      (built.run backend.logged steps).slots =
        [(⟨0, 0⟩, ⟨stuck, none⟩), (⟨0, 1⟩, ⟨refusing, some refused⟩)] := ⟨_, rfl, rfl⟩
  obtain ⟨built, hbuilt, hslots⟩ := hbuild
  exact ⟨built, hbuilt, hslots, run_failures backend hbuilt steps⟩

section Holder

variable {b : SinkBackend σ ω} {s : Session σ ω} {before after : List (Address × Slot σ)}
  {a : Address} {slot : Slot σ} {failure : Failure}

theorem flush_of_holder (hslots : s.slots = before ++ (a, slot) :: after)
    (hnone : ∀ x ∈ before, x.2.failure = none) (hheld : slot.failure = some failure) :
    (s.flush b).2 =
        some ((b.firstFlushFailure (before.map fun x => x.2.sink) s.world).getD failure) ∧
      (s.flush b).1.slots =
        if (b.firstFlushFailure (before.map fun x => x.2.sink) s.world).isNone then
          before ++ (a, Slot.new slot.sink) :: after
        else s.slots := by
  obtain ⟨_, -, hleft, -, -, hfailure⟩ := flush_leaves b s
  rw [← hfailure, ← hleft, hslots]
  exact b.flushAll_of_first_holder a hnone hheld s.world

/-- Behind a sink that can never be flushed a failure outlasts each step. -/
theorem apply_keeps {groups : List (Group σ)} (hserves : s.router.Serves groups)
    (hslots : s.slots = before ++ (a, slot) :: after) (hheld : slot.failure = some failure)
    {sink : σ} (hsink : sink ∈ before.map fun x => x.2.sink)
    (hstuck : ∀ w, (b.flush sink w).1 ≠ none) (step : Step) :
    ∃ before' after', (s.apply b step).slots = before' ++ (a, slot) :: after' ∧
      before'.map (fun x => x.2.sink) = before.map fun x => x.2.sink := by
  obtain ⟨⟨_, hwalk, -⟩, -⟩ := apply_moves hserves b step
  rw [hslots] at hwalk
  refine hwalk.keeps hheld ?_
  cases step with
  | flush =>
    -- the tour ends among the slots before, so it gets to no other address
    have hends : (b.flushAll s.slots s.world).visits = (b.flushAll before s.world).visits := by
      obtain ⟨other, hother⟩ :=
        Option.ne_none_iff_exists'.1 (b.flushAll_failure_ne_none hsink hstuck s.world)
      simp only [hslots, SinkBackend.flushAll_append, hother]
    have hnodup := nodup_addresses 0 s.router.groups
    rw [← slots, hslots, List.map_append, List.nodup_append] at hnodup
    intro v hv
    rw [visits, hends] at hv
    have hbefore := (b.flushAll_walk before s.world).address_mem v hv
    exact Visit.reported?_of_ne (hnodup.2.2 _ hbefore a List.mem_cons_self)
  | _ => exact b.reported?_writeAll a _ _

theorem run_keeps {groups : List (Group σ)} (hserves : s.router.Serves groups)
    (hslots : s.slots = before ++ (a, slot) :: after) (hheld : slot.failure = some failure)
    {sink : σ} (hsink : sink ∈ before.map fun x => x.2.sink)
    (hstuck : ∀ w, (b.flush sink w).1 ≠ none) (steps : List Step) :
    (a, slot) ∈ (s.run b steps).slots := by
  induction steps generalizing s before after with
  | nil =>
    change _ ∈ s.slots
    rw [hslots]
    exact List.mem_append_right _ List.mem_cons_self
  | cons step rest ih =>
    obtain ⟨before', after', hslots', hsinks⟩ :=
      apply_keeps hserves hslots hheld hsink hstuck step
    exact ih (apply_moves hserves b step).2 hslots' (hsinks ▸ hsink)

end Holder

/-- The first failure that is held waits for the sinks before it. A flush reports it
    if and only if all of these are flushed; otherwise the flush comes to the failure of
    the first that is not, and every slot holds what it held. If one of them can never
    be flushed, it is held for ever, whatever else is done. -/
theorem flush_reports_iff (b : SinkBackend σ ω) {s built : Session σ ω}
    {plan : List (PlanStep σ)} (hbuild : s.build plan = .ok built) (steps : List Step)
    {before after : List (Address × Slot σ)} {a : Address} {slot : Slot σ} {failure : Failure}
    (hslots : (built.run b steps).slots = before ++ (a, slot) :: after)
    (hnone : ∀ x ∈ before, x.2.failure = none) (hheld : slot.failure = some failure) :
    let reached := built.run b steps
    let sinks := before.map fun x => x.2.sink
    ((reached.flush b).2 = some failure ∧
        (reached.flush b).1.slots = before ++ (a, Slot.new slot.sink) :: after ↔
      b.firstFlushFailure sinks reached.world = none) ∧
    (∀ other, b.firstFlushFailure sinks reached.world = some other →
      (reached.flush b).2 = some other ∧ (reached.flush b).1.slots = reached.slots) ∧
    ((∃ sink ∈ sinks, ∀ w, (b.flush sink w).1 ≠ none) →
      ∀ more, (a, slot) ∈ (reached.run b more).slots) := by
  intro reached sinks
  obtain ⟨hfailure, hleft⟩ := flush_of_holder (b := b) hslots hnone hheld
  refine ⟨?_, ?_, ?_⟩
  · cases hfirst : b.firstFlushFailure sinks reached.world with
    | none =>
      rw [hfirst] at hfailure hleft
      exact iff_of_true ⟨hfailure, hleft⟩ rfl
    | some other =>
      -- the slot still holds its failure, so it is not the one that is left
      rw [hfirst] at hleft
      refine iff_of_false ?_ (Option.some_ne_none other)
      rintro ⟨-, hcleared⟩
      have hsame : reached.slots = before ++ (a, Slot.new slot.sink) :: after :=
        hleft.symm.trans hcleared
      rw [hslots, List.append_cancel_left_eq, List.cons.injEq, Prod.mk.injEq] at hsame
      rw [hsame.1.2] at hheld
      cases hheld
  · intro other hother
    rw [hother] at hfailure hleft
    exact ⟨hfailure, hleft⟩
  · rintro ⟨sink, hsink, hstuck⟩ more
    obtain ⟨hserves, -, haccount⟩ := accounted_of_build hbuild
    exact run_keeps (haccount.run hserves b steps).2 hslots hheld hsink hstuck more

section Faulty

open FaultySink

/-- The failure of the sink behind is held for ever, as the one in front is stuck. -/
theorem flush_reports_iff_faulty :
    ∃ built, (session ()).build plan = .ok built ∧
      (built.run backend [.dispatch (.new .error default)]).slots =
        [(⟨0, 0⟩, ⟨stuck, none⟩)] ++ (⟨0, 1⟩, ⟨refusing, some refused⟩) :: [] ∧
      ∀ more, (⟨0, 1⟩, ⟨refusing, some refused⟩) ∈
        ((built.run backend [.dispatch (.new .error default)]).run backend more).slots := by
  have hbuild : ∃ built, (session ()).build plan = .ok built ∧
      (built.run backend [.dispatch (.new .error default)]).slots =
        [(⟨0, 0⟩, ⟨stuck, none⟩)] ++ (⟨0, 1⟩, ⟨refusing, some refused⟩) :: [] := ⟨_, rfl, rfl⟩
  obtain ⟨built, hbuilt, hslots⟩ := hbuild
  obtain ⟨-, -, hkept⟩ := flush_reports_iff backend hbuilt _ hslots (by simp) rfl
  exact ⟨built, hbuilt, hslots,
    hkept ⟨stuck, List.mem_singleton.2 rfl, fun w => Option.some_ne_none _⟩⟩

/-- The flush comes to the failure of the sink in front, and not to the one that was
    held before the flush. -/
theorem flush_unflushed :
    ∃ built, (session ()).build plan = .ok built ∧
      (built.run backend [.dispatch (.new .error default)]).slots =
        [(⟨0, 0⟩, ⟨stuck, none⟩), (⟨0, 1⟩, ⟨refusing, some refused⟩)] ∧
      ((built.run backend [.dispatch (.new .error default)]).flush backend).2 =
        some unflushed ∧
      unflushed ≠ refused := by
  exact ⟨_, rfl, rfl, rfl, by decide⟩

end Faulty

end Session

end Logbook
