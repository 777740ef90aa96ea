import Logbook.Proofs.Router.Flush
import Logbook.Proofs.Router.Table
import Logbook.Router.Session

/-!
# Histories of sessions

`Session.history` are the visits of a whole run, one step after another, and
`Session.Accounted` what they account for: the failures that slots hold and the
diagnostics that were emitted. A step is a walk along the slots, which goes on with
the account (`Accounted.moves`), so a run does (`Accounted.run`). In a world with a
log the calls among the visits are exactly those that were made
(`Session.log_run`).
-/

namespace Logbook

namespace Session

/-- The slots of the router in their order, each with its address. -/
def slots (s : Session σ ω) : List (Address × Slot σ) := addressGroups 0 s.router.groups

/-- The event that a step dispatches. -/
def dispatched? (s : Session σ ω) : Step → Option Event
  | .dispatch e => some e
  | .send place => s.held[place]?
  | _ => none

/-- The parcels of the event that a step dispatches to groups. -/
def posted (s : Session σ ω) (groups : List (Group σ)) (step : Step) : List (Parcel σ) :=
  (s.dispatched? step).elim [] (parcels s.router.captured [] groups)

/-- The visits that a step makes. -/
def visits (b : SinkBackend σ ω) (s : Session σ ω) : Step → List (Visit σ)
  | .flush => (b.flushAll s.slots s.world).visits
  | step => (b.writeAll (s.posted s.router.groups step) s.world).1

/-- The visits that some steps make, one step after another. -/
def history (b : SinkBackend σ ω) (s : Session σ ω) : List Step → List (Visit σ)
  | [] => []
  | step :: rest => s.visits b step ++ (s.apply b step).history b rest

/-- A session has become another one along a walk. -/
def Moves (b : SinkBackend σ ω) (s : Session σ ω) (visits : List (Visit σ))
    (s' : Session σ ω) : Prop :=
  ∃ diagnostics, Walk b s.slots s.world visits diagnostics s'.slots s'.world ∧
    s'.diagnostics = s.diagnostics ++ diagnostics

variable {b : SinkBackend σ ω} {s : Session σ ω} {groups : List (Group σ)}

theorem Moves.stay (b : SinkBackend σ ω) (s : Session σ ω) : s.Moves b [] s :=
  ⟨[], .refl b s.slots s.world, (List.append_nil _).symm⟩

/-- A dispatch writes the parcels of the event and changes nothing but the table. -/
theorem dispatch_moves (h : s.router.Serves groups) (b : SinkBackend σ ω) (e : Event) :
    s.Moves b (b.writeAll (parcels s.router.captured [] s.router.groups e) s.world).1
        (s.dispatch b e).1 ∧
      (s.dispatch b e).1.router.Serves groups := by
  obtain ⟨-, hworld, hwalk⟩ := deliver_delivers b s.router.captured [] s.router.groups e s.world
  obtain ⟨hserves, hgroups⟩ := h.withGroups
    ((deliver_bare b s.router.captured 0 s.router.groups e s.world).trans h.bare)
  simp only [dispatch, h.dispatch_eq b e s.world, Moves, slots, hgroups]
  exact ⟨⟨_, hwalk, rfl⟩, hserves⟩

/-- A flush is a tour along all slots. -/
theorem flush_leaves (b : SinkBackend σ ω) (s : Session σ ω) :
    ∃ diagnostics, (s.flush b).1.diagnostics = s.diagnostics ++ diagnostics ∧
      (b.flushAll s.slots s.world).Leaves (s.flush b).1.slots (s.flush b).1.world diagnostics
        (s.flush b).2 := by
  obtain ⟨hflush, hgroups⟩ := Router.flush_eq b s.router s.world
  rw [hflush] at hgroups
  simp only [flush, slots, hflush, hgroups]
  exact ⟨_, rfl, flushGroups_leaves b 0 s.router.groups s.world⟩

theorem flush_moves (b : SinkBackend σ ω) (s : Session σ ω) :
    s.Moves b (b.flushAll s.slots s.world).visits (s.flush b).1 := by
  obtain ⟨diagnostics, hdiagnostics, hslots, hworld, hreports, -⟩ := flush_leaves b s
  refine ⟨diagnostics, ?_, hdiagnostics⟩
  rw [← hslots, ← hworld, ← hreports]
  exact b.flushAll_walk s.slots s.world

theorem flush_serves (h : s.router.Serves groups) (b : SinkBackend σ ω) :
    (s.flush b).1.router.Serves groups := by
  simp only [flush, (Router.flush_eq b s.router s.world).1]
  exact (h.withGroups ((flushGroups_bare b 0 s.router.groups s.world).trans h.bare)).1

/-- Every step is a walk along the slots, and the router serves what it served. -/
theorem apply_moves (h : s.router.Serves groups) (b : SinkBackend σ ω) (step : Step) :
    s.Moves b (s.visits b step) (s.apply b step) ∧ (s.apply b step).router.Serves groups := by
  cases step with
  | proceed captured | acquire level time | populate place steps =>
    exact ⟨.stay b s, h.of_table rfl⟩
  | send place =>
    simp only [visits, posted, dispatched?, apply, send]
    cases s.held[place]? with
    | none => exact ⟨.stay b s, h⟩
    | some e =>
      -- the event goes back to the pool, which no slot sees
      obtain ⟨hmoves, hserves⟩ := dispatch_moves h b e
      exact ⟨hmoves, hserves.of_table rfl⟩
  | drop place =>
    simp only [visits, posted, dispatched?, apply, drop]
    cases s.held[place]? with
    | none => exact ⟨.stay b s, h⟩
    | some e => exact ⟨.stay b s, h.of_table rfl⟩
  | dispatch e => exact dispatch_moves h b e
  | flush => exact ⟨flush_moves b s, flush_serves h b⟩

/-- What the visits so far account for, in a session that was at its start once: the
    failures that slots hold, and the diagnostics since. Each visit fits to those
    before it, and the sinks are where they were. -/
structure Accounted (start : Session σ ω) (history : List (Visit σ)) (s : Session σ ω) : Prop where
  sinks : (s.slots.map fun x => (x.1, x.2.sink)) = start.slots.map fun x => (x.1, x.2.sink)
  held : Holding history s.slots
  coherent : Coherent [] history
  diagnostics : s.diagnostics = start.diagnostics ++ visitDiagnostics [] history

/-- A session that has built its router serves the groups of the plan, and has nothing
    to account for. -/
theorem accounted_of_build {built : Session σ ω} {plan : List (PlanStep σ)}
    (h : s.build plan = .ok built) :
    built.router.Serves (Plan.ofSteps plan).finish ∧
      built.slots = addressGroups 0 (Plan.ofSteps plan).finish ∧ Accounted built [] built := by
  rw [build] at h
  cases hrouter : s.router.build plan with
  | error error =>
    rw [hrouter] at h
    cases h
  | ok result =>
    rw [hrouter] at h
    cases h
    obtain ⟨hserves, hgroups⟩ := Router.serves_of_build hrouter
    refine ⟨hserves, congrArg (addressGroups 0) hgroups, rfl, ?_, .nil, (List.append_nil _).symm⟩
    -- the groups of a plan are bare
    intro x hx
    obtain ⟨g, hg, hslot⟩ := exists_mem_of_mem_addressGroups hx
    rw [hgroups, ← Plan.finish_bare] at hg
    obtain ⟨g, -, rfl⟩ := List.mem_map.1 hg
    exact Group.failure_of_mem_bare hslot

namespace Accounted

variable {start : Session σ ω} {past visits : List (Visit σ)}

/-- A walk goes on with the account. -/
theorem moves {s' : Session σ ω} (h : Accounted start past s) (hmoves : s.Moves b visits s') :
    Accounted start (past ++ visits) s' := by
  obtain ⟨diagnostics, hwalk, hdiagnostics⟩ := hmoves
  obtain ⟨hheld, hfits, hreports⟩ := hwalk.account (nodup_addresses 0 s.router.groups) h.held
  refine ⟨hwalk.map_sink.trans h.sinks, hheld, h.coherent.append hfits, ?_⟩
  rw [hdiagnostics, h.diagnostics, List.append_assoc, hreports, visitDiagnostics_append,
    List.nil_append]

/-- A run goes on with the account. -/
theorem run (h : Accounted start past s) (hserves : s.router.Serves groups)
    (b : SinkBackend σ ω) (steps : List Step) :
    Accounted start (past ++ s.history b steps) (s.run b steps) ∧
      (s.run b steps).router.Serves groups := by
  induction steps generalizing s past with
  | nil =>
    rw [history, List.append_nil]
    exact ⟨h, hserves⟩
  | cons step rest ih =>
    obtain ⟨hmoves, hserves'⟩ := apply_moves hserves b step
    rw [history, ← List.append_assoc]
    exact ih (h.moves hmoves) hserves'

end Accounted

/-- In a world with a log the calls among the visits are those that were made. -/
theorem log_run {s : Session σ (ω × List (SinkCall σ))} (h : s.router.Serves groups)
    (b : SinkBackend σ ω) (steps : List Step) :
    (s.run b.logged steps).world.2 =
      s.world.2 ++ (s.history b.logged steps).filterMap Visit.call? := by
  induction steps generalizing s with
  | nil => exact (List.append_nil _).symm
  | cons step rest ih =>
    obtain ⟨⟨_, hwalk, -⟩, hserves⟩ := apply_moves h b.logged step
    rw [history, List.filterMap_append, ← List.append_assoc, ← hwalk.log_eq]
    exact ih hserves

end Session

end Logbook
