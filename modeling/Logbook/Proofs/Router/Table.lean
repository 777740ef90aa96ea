import Logbook.Proofs.Router.Parcels
import Logbook.Router.Basic

/-!
# Tables in use

The loosest of some levels is passed by exactly the levels that pass one of them
(`Level.passes_foldl_max`), so a dispatch that ends early had no group to deliver to
(`Table.dispatch_eq_deliver`). What a router does changes the failures that its
slots hold and nothing else of its table: `Router.Serves` says that a router has
the table of some groups, up to these failures.
-/

namespace Logbook

namespace Level

theorem passes_max (level a b : Level) :
    level.passes (a.max b) = (level.passes a || level.passes b) := by
  rw [Bool.eq_iff_iff, Bool.or_eq_true, passes_iff, passes_iff, passes_iff, max]
  split <;> omega

theorem passes_foldl_max (level a : Level) (levels : List Level) :
    level.passes (levels.foldl Level.max a) = (level.passes a || levels.any level.passes) := by
  induction levels generalizing a with
  | nil => exact (Bool.or_false _).symm
  | cons threshold levels ih => rw [List.foldl_cons, ih, passes_max, Bool.or_assoc, List.any_cons]

end Level

namespace Table

variable {groups : List (Group σ)}

/-- A level passes the threshold of a table if it passes that of a group. -/
theorem passes_threshold (level : Level) (hne : groups ≠ []) :
    level.passes (ofGroups groups).threshold = groups.any fun g => level.passes g.threshold := by
  cases groups with
  | nil => exact absurd rfl hne
  | cons g rest =>
    change level.passes ((rest.map Group.threshold).foldl Level.max g.threshold) = _
    rw [Level.passes_foldl_max, List.any_map, List.any_cons]
    rfl

/-- The threshold of a table tells what reaches a sink only if it is that of a group
    with sinks. -/
theorem threshold_exact_iff :
    (∀ level : Level, level.passes (ofGroups groups).threshold = true →
        ∃ g ∈ groups, g.slots ≠ [] ∧ level.passes g.threshold = true) ↔
      ∃ g ∈ groups, g.slots ≠ [] ∧ g.threshold = (ofGroups groups).threshold := by
  constructor
  · intro h
    obtain ⟨g, hg, hslots, hpasses⟩ :=
      h (ofGroups groups).threshold (Level.passes_iff.2 (Nat.le_refl _))
    refine ⟨g, hg, hslots, Level.value_injective (Nat.le_antisymm ?_ (Level.passes_iff.1 hpasses))⟩
    rw [← Level.passes_iff, passes_threshold _ (List.ne_nil_of_mem hg)]
    exact List.any_eq_true.2 ⟨g, hg, Level.passes_iff.2 (Nat.le_refl _)⟩
  · rintro ⟨g, hg, hslots, heq⟩ level hpasses
    exact ⟨g, hg, hslots, heq ▸ hpasses⟩

end Table

/-- The group with slots that hold nothing. -/
def Group.bare (g : Group σ) : Group σ :=
  { g with slots := g.slots.map fun slot => Slot.new slot.sink }

section Bare

theorem writeSlots_bare (b : SinkBackend σ ω) (group : Nat) (bytes : List UInt8) (index : Nat)
    (slots : List (Slot σ)) (w : ω) :
    (writeSlots b group bytes index slots w).slots.map (fun slot => Slot.new slot.sink) =
      slots.map fun slot => Slot.new slot.sink := by
  induction slots generalizing index w with
  | nil => rfl
  | cons slot rest ih =>
    simp only [writeSlots, Slot.write_eq b ⟨group, index⟩, List.map_cons, ih]
    rfl

theorem deliver_bare (b : SinkBackend σ ω) (captured : Trace) (index : Nat)
    (groups : List (Group σ)) (e : Event) (w : ω) :
    (deliver b captured index groups e w).groups.map Group.bare = groups.map Group.bare := by
  induction groups generalizing index e w with
  | nil => rfl
  | cons g rest ih =>
    rw [deliver]
    split
    · simp only [List.map_cons, ih, Group.bare, writeSlots_bare]
    · simp only [List.map_cons, ih]

theorem flushSlots_bare (b : SinkBackend σ ω) (group index : Nat) (slots : List (Slot σ)) (w : ω) :
    (flushSlots b group index slots w).slots.map (fun slot => Slot.new slot.sink) =
      slots.map fun slot => Slot.new slot.sink := by
  induction slots generalizing index w with
  | nil => rfl
  | cons slot rest ih =>
    rw [flushSlots]
    split
    · rfl
    · split
      · rfl
      · simp only [List.map_cons, ih]

theorem flushGroups_bare (b : SinkBackend σ ω) (index : Nat) (groups : List (Group σ)) (w : ω) :
    (flushGroups b index groups w).groups.map Group.bare = groups.map Group.bare := by
  induction groups generalizing index w with
  | nil => rfl
  | cons g rest ih =>
    rw [flushGroups]
    split
    · simp only [List.map_cons, Group.bare, flushSlots_bare]
    · simp only [List.map_cons, ih, Group.bare, flushSlots_bare]

end Bare

/-- An event that reaches no group is not delivered. -/
theorem deliver_of_none_reached (b : SinkBackend σ ω) (captured : Trace) (index : Nat)
    {groups : List (Group σ)} {e : Event} (w : ω)
    (h : ∀ g ∈ groups, g.isReached e.level = false) :
    deliver b captured index groups e w = ⟨groups, e, 0, w, []⟩ := by
  induction groups generalizing index with
  | nil => rfl
  | cons g rest ih =>
    obtain ⟨hg, hrest⟩ := List.forall_mem_cons.1 h
    simp only [deliver, hg, ih (index + 1) hrest, Bool.false_eq_true, if_false]

/-- The early end of a dispatch loses nothing: it is the delivery to the groups. -/
theorem Table.dispatch_eq_deliver (b : SinkBackend σ ω) (captured : Trace) {t : Table σ}
    (e : Event) (w : ω)
    (h : ∀ g ∈ t.groups, e.level.passes g.threshold = true → e.level.passes t.threshold = true) :
    t.dispatch b captured e w =
      ({ t with groups := (deliver b captured 0 t.groups e w).groups },
        deliver b captured 0 t.groups e w) := by
  unfold dispatch
  split
  · rfl
  · next hnot =>
    have hnone : ∀ g ∈ t.groups, g.isReached e.level = false := by
      intro g hg
      have hgroup : e.level.passes g.threshold = false :=
        Bool.eq_false_iff.2 fun hpasses => hnot (h g hg hpasses)
      rw [Group.isReached, hgroup, Bool.false_and]
    rw [deliver_of_none_reached b captured 0 w hnone]

theorem Group.failure_of_mem_bare {g : Group σ} {slot : Slot σ} (h : slot ∈ g.bare.slots) :
    slot.failure = none := by
  obtain ⟨other, -, rfl⟩ := List.mem_map.1 h
  rfl

theorem GroupDraft.bare_finish (p : GroupDraft σ) : p.finish.bare = p.finish := by
  simp [finish, Group.bare, Slot.new]

namespace Plan

theorem apply_bare {r : Plan σ} (h : r.groups.map Group.bare = r.groups) (step : PlanStep σ) :
    (r.apply step).groups.map Group.bare = (r.apply step).groups := by
  cases step with
  | encoder encode =>
    rw [apply]
    split
    · rw [List.map_append, h, List.map_singleton, GroupDraft.bare_finish]
    · exact h
  | threshold level | traceThreshold level | sinks sinks => exact h

theorem foldl_apply_bare (steps : List (PlanStep σ)) {r : Plan σ}
    (h : r.groups.map Group.bare = r.groups) :
    (steps.foldl apply r).groups.map Group.bare = (steps.foldl apply r).groups := by
  induction steps generalizing r with
  | nil => exact h
  | cons step rest ih => exact ih (apply_bare h step)

/-- The groups of a plan hold nothing. -/
theorem finish_bare (steps : List (PlanStep σ)) :
    (ofSteps steps).finish.map Group.bare = (ofSteps steps).finish := by
  have hgroups : (ofSteps steps).groups.map Group.bare = (ofSteps steps).groups :=
    foldl_apply_bare steps rfl
  rw [finish]
  split
  · exact hgroups
  · rw [List.map_append, hgroups, List.map_singleton, GroupDraft.bare_finish]

end Plan

namespace Router

/-- The groups that the router has. -/
def groups (r : Router σ) : List (Group σ) := r.table.elim [] Table.groups

/-- The router with other groups in its table. -/
def withGroups (r : Router σ) (groups : List (Group σ)) : Router σ :=
  { r with table := r.table.map fun t => { t with groups } }

/-- The router has the table of the groups, up to the failures that slots hold. -/
structure Serves (r : Router σ) (groups : List (Group σ)) : Prop where
  table : r.table.map Table.threshold = some (Table.ofGroups groups).threshold
  bare : r.groups.map Group.bare = groups
  exists_slot : ∃ g ∈ groups, g.slots ≠ []

variable {r r' : Router σ} {groups : List (Group σ)}

/-- A router has the groups of the plan that it was built by. -/
theorem serves_of_build {plan : List (PlanStep σ)} {report : Diagnostic}
    (h : r.build plan = .ok (r', report)) :
    r'.Serves (Plan.ofSteps plan).finish ∧ r'.groups = (Plan.ofSteps plan).finish := by
  rw [build, install] at h
  split at h
  · cases h
  · split at h
    · cases h
    · next hslots =>
      cases h
      exact ⟨⟨rfl, Plan.finish_bare plan, by simpa using hslots⟩, rfl⟩

namespace Serves

theorem ne_nil (h : r.Serves groups) : groups ≠ [] := by
  obtain ⟨g, hg, -⟩ := h.exists_slot
  exact List.ne_nil_of_mem hg

/-- Nothing but the table counts. -/
theorem of_table (h : r.Serves groups) (htable : r'.table = r.table) : r'.Serves groups := by
  obtain ⟨hthreshold, hbare, hslot⟩ := h
  refine ⟨by rw [htable, hthreshold], ?_, hslot⟩
  rw [Router.groups, htable]
  exact hbare

/-- What is done with the table leaves the rest of it. -/
theorem withGroups (h : r.Serves groups) {others : List (Group σ)}
    (hothers : others.map Group.bare = groups) :
    (r.withGroups others).Serves groups ∧ (r.withGroups others).groups = others := by
  obtain ⟨htable, -, hslot⟩ := h
  obtain ⟨_ | t, pool, captured, recorder⟩ := r
  · cases htable
  · exact ⟨⟨htable, hothers, hslot⟩, rfl⟩

/-- A level is enabled if it passes the threshold of a group. -/
theorem enabled_eq (h : r.Serves groups) (level : Level) :
    r.enabled level = groups.any fun g => level.passes g.threshold := by
  obtain ⟨t, ht, hthreshold⟩ := Option.map_eq_some_iff.1 h.table
  rw [← Table.passes_threshold level h.ne_nil, ← hthreshold, enabled, ht]
  rfl

/-- A dispatch is the delivery of the event to the groups. -/
theorem dispatch_eq (h : r.Serves groups) (b : SinkBackend σ ω) (e : Event) (w : ω) :
    r.dispatch b e w =
      (r.withGroups (deliver b r.captured 0 r.groups e w).groups,
        deliver b r.captured 0 r.groups e w) := by
  have henabled := h.enabled_eq e.level
  rw [← h.bare, List.any_map] at henabled
  obtain ⟨_ | t, pool, captured, recorder⟩ := r
  · cases h.table
  · -- a group that the level passes makes the table be passed
    have hpasses : ∀ g ∈ t.groups, e.level.passes g.threshold = true →
        e.level.passes t.threshold = true := by
      intro g hg hlevel
      exact henabled.trans (List.any_eq_true.2 ⟨g, hg, hlevel⟩)
    rw [dispatch]
    simp only [Table.dispatch_eq_deliver b captured e w hpasses]
    rfl

end Serves

/-- A flush is the flush of the groups. -/
theorem flush_eq (b : SinkBackend σ ω) (r : Router σ) (w : ω) :
    r.flush b w = (r.withGroups (flushGroups b 0 r.groups w).groups, flushGroups b 0 r.groups w) ∧
      (r.flush b w).1.groups = (flushGroups b 0 r.groups w).groups := by
  obtain ⟨_ | t, pool, captured, recorder⟩ := r <;> exact ⟨rfl, rfl⟩

end Router

end Logbook
