import Logbook.Proofs.Router.History

/-!
# Runs without a log

The log of the sinks is for looking on. `Session.unlogged_run` says that a run in a
world with a log is the run without it, so that what is said of the calls in the
log is said of a run with any sinks.
-/

namespace Logbook

section Logged

variable (b : SinkBackend σ ω)

theorem Slot.write_logged (group index : Nat) (bytes : List UInt8) (slot : Slot σ)
    (w : ω × List (SinkCall σ)) :
    slot.write b group index bytes w.1 =
      let written := slot.write b.logged group index bytes w
      (written.1, written.2.1.1, written.2.2) := by
  have h := Slot.write_eq b ⟨group, index⟩ bytes slot w.1
  rw [h, Slot.write_eq b.logged ⟨group, index⟩]
  rfl

theorem writeSlots_logged (group : Nat) (bytes : List UInt8) (index : Nat) (slots : List (Slot σ))
    (w : ω × List (SinkCall σ)) :
    writeSlots b group bytes index slots w.1 =
      let written := writeSlots b.logged group bytes index slots w
      ⟨written.slots, written.world.1, written.diagnostics⟩ := by
  induction slots generalizing index w with
  | nil => rfl
  | cons slot rest ih => simp only [writeSlots, Slot.write_logged b, ih]

theorem deliver_logged (captured : Trace) (index : Nat) (groups : List (Group σ)) (e : Event)
    (w : ω × List (SinkCall σ)) :
    deliver b captured index groups e w.1 =
      let delivery := deliver b.logged captured index groups e w
      ⟨delivery.groups, delivery.event, delivery.captures, delivery.world.1,
        delivery.diagnostics⟩ := by
  induction groups generalizing index e w with
  | nil => rfl
  | cons g rest ih =>
    simp only [deliver]
    split <;> simp only [writeSlots_logged, ih]

theorem flushSlots_logged (group index : Nat) (slots : List (Slot σ))
    (w : ω × List (SinkCall σ)) :
    flushSlots b group index slots w.1 =
      let flushed := flushSlots b.logged group index slots w
      ⟨⟨flushed.slots, flushed.world.1, flushed.diagnostics⟩, flushed.failure⟩ := by
  induction slots generalizing index w with
  | nil => rfl
  | cons slot rest ih =>
    simp only [flushSlots]
    cases slot.failure with
    | some failure => rfl
    | none =>
      have hflush : b.flush slot.sink w.1 =
        ((b.logged.flush slot.sink w).1, (b.logged.flush slot.sink w).2.1) := rfl
      simp only [hflush]
      rcases b.logged.flush slot.sink w with ⟨_ | failure, w'⟩
      · simp only [ih]
      · rfl

theorem flushGroups_logged (index : Nat) (groups : List (Group σ)) (w : ω × List (SinkCall σ)) :
    flushGroups b index groups w.1 =
      let flushed := flushGroups b.logged index groups w
      ⟨flushed.groups, flushed.world.1, flushed.diagnostics, flushed.failure⟩ := by
  induction groups generalizing index w with
  | nil => rfl
  | cons g rest ih =>
    simp only [flushGroups, flushSlots_logged]
    cases (flushSlots b.logged index 0 g.slots w).failure with
    | some failure => rfl
    | none => simp only [ih]

end Logged

namespace Session

/-- The session without the log. -/
def unlogged (s : Session σ (ω × List (SinkCall σ))) : Session σ ω :=
  ⟨s.router, s.held, s.world.1, s.captures, s.diagnostics⟩

theorem unlogged_dispatch (b : SinkBackend σ ω) (s : Session σ (ω × List (SinkCall σ)))
    (e : Event) :
    s.unlogged.dispatch b e = ((s.dispatch b.logged e).1.unlogged, (s.dispatch b.logged e).2) := by
  obtain ⟨⟨_ | t, pool, captured, recorder⟩, held, w, captures, diagnostics⟩ := s
  · rfl
  · simp only [dispatch, unlogged, Router.dispatch, Table.dispatch]
    split
    · rw [deliver_logged]
    · rfl

theorem unlogged_flush (b : SinkBackend σ ω) (s : Session σ (ω × List (SinkCall σ))) :
    s.unlogged.flush b = ((s.flush b.logged).1.unlogged, (s.flush b.logged).2) := by
  obtain ⟨⟨_ | t, pool, captured, recorder⟩, held, w, captures, diagnostics⟩ := s
  · rfl
  · simp only [flush, unlogged, Router.flush, Table.flush, flushGroups_logged]

theorem unlogged_apply (b : SinkBackend σ ω) (s : Session σ (ω × List (SinkCall σ)))
    (step : Step) : s.unlogged.apply b step = (s.apply b.logged step).unlogged := by
  have hheld : s.unlogged.held = s.held := rfl
  cases step with
  | proceed captured | acquire level time | populate place steps => rfl
  | send place =>
    simp only [apply, send, unlogged_dispatch, hheld]
    cases s.held[place]? <;> rfl
  | drop place =>
    simp only [apply, drop, hheld]
    cases s.held[place]? <;> rfl
  | dispatch e => exact congrArg Prod.fst (unlogged_dispatch b s e)
  | flush => exact congrArg Prod.fst (unlogged_flush b s)

/-- The log changes nothing of a run. -/
theorem unlogged_run (b : SinkBackend σ ω) (s : Session σ (ω × List (SinkCall σ)))
    (steps : List Step) : (s.run b.logged steps).unlogged = s.unlogged.run b steps := by
  induction steps generalizing s with
  | nil => rfl
  | cons step rest ih =>
    exact (ih (s.apply b.logged step)).trans
      (congrArg (run b · rest) (unlogged_apply b s step).symm)

end Session

end Logbook
