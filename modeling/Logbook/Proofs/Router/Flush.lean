import Logbook.Proofs.Router.Walk

/-!
# Tours of a flush

A flush is a tour along all slots in their order, whatever their groups
(`flushGroups_leaves`), and ends at the first failure. `FlushCourse` lists the
three ways that it may go, and `flushAll_course` says that it goes one of them.
Behind sinks that hold nothing, the failure that a slot holds is reported if and
only if all of these sinks can be flushed (`flushAll_of_first_holder`).
-/

namespace Logbook

/-- What a flush along slots visits and leaves, and the failure that it stopped at. -/
structure FlushTour (σ ω : Type) where
  slots : List (Address × Slot σ)
  world : ω
  visits : List (Visit σ)
  diagnostics : List Diagnostic
  failure : Option Failure

namespace SinkBackend

/-- Flushes slots one after another. A failure that a slot holds is reported, and the
    first failure ends the tour. -/
def flushAll (b : SinkBackend σ ω) : List (Address × Slot σ) → ω → FlushTour σ ω
  | [], w => ⟨[], w, [], [], none⟩
  | (a, slot) :: rest, w =>
    match slot.failure with
    | some failure =>
      ⟨(a, { slot with failure := none }) :: rest, w, [.report a failure], [], some failure⟩
    | none =>
      match b.flush slot.sink w with
      | (some failure, w) =>
        ⟨(a, slot) :: rest, w, [.call a ⟨.flush slot.sink, some failure⟩],
          [.flushFailed a.group a.index failure], some failure⟩
      | (none, w) =>
        let others := b.flushAll rest w
        { others with
          slots := (a, slot) :: others.slots
          visits := .call a ⟨.flush slot.sink, none⟩ :: others.visits }

/-- A tour along more slots goes on where it did not end before. -/
theorem flushAll_append (b : SinkBackend σ ω) (xs ys : List (Address × Slot σ)) (w : ω) :
    b.flushAll (xs ++ ys) w =
      let first := b.flushAll xs w
      match first.failure with
      | some _ => { first with slots := first.slots ++ ys }
      | none =>
        let second := b.flushAll ys first.world
        { second with
          slots := first.slots ++ second.slots
          visits := first.visits ++ second.visits
          diagnostics := first.diagnostics ++ second.diagnostics } := by
  induction xs generalizing w with
  | nil => rfl
  | cons x xs ih =>
    obtain ⟨a, sink, held⟩ := x
    cases held with
    | some failure => rfl
    | none =>
      simp only [List.cons_append, flushAll]
      rcases b.flush sink w with ⟨_ | failure, w'⟩
      · simp only [ih]
        cases (b.flushAll xs w').failure <;> rfl
      · rfl

/-- A sink that can never be flushed ends a tour. -/
theorem flushAll_failure_ne_none (b : SinkBackend σ ω) {slots : List (Address × Slot σ)} {sink : σ}
    (hsink : sink ∈ slots.map fun x => x.2.sink) (hstuck : ∀ w, (b.flush sink w).1 ≠ none) (w : ω) :
    (b.flushAll slots w).failure ≠ none := by
  induction slots generalizing w with
  | nil => exact absurd hsink List.not_mem_nil
  | cons x rest ih =>
    obtain ⟨a, slot⟩ := x
    rw [flushAll]
    split
    · exact Option.some_ne_none _
    · split
      · exact Option.some_ne_none _
      · next w' hflush =>
        rcases List.mem_cons.1 hsink with rfl | hsink
        · exact absurd (congrArg Prod.fst hflush) (hstuck w)
        · exact ih hsink w'

/-- A flush is a walk along its slots. -/
theorem flushAll_walk (b : SinkBackend σ ω) (slots : List (Address × Slot σ)) (w : ω) :
    Walk b slots w (b.flushAll slots w).visits (b.flushAll slots w).diagnostics
      (b.flushAll slots w).slots (b.flushAll slots w).world := by
  induction slots generalizing w with
  | nil => exact .done w
  | cons x rest ih =>
    obtain ⟨a, slot⟩ := x
    rw [flushAll]
    split
    · next failure hheld => exact .report hheld (.refl b rest w)
    · next hheld =>
      split
      · next failure w' hflush =>
        have hwalk : Walk b ((a, slot) :: rest) w _ _ _ _ :=
          .flush hheld (.refl b rest (b.flush slot.sink w).2)
        rw [hflush] at hwalk
        exact hwalk
      · next w' hflush =>
        have hwalk : Walk b ((a, slot) :: rest) w _ _ _ _ :=
          .flush hheld (ih (b.flush slot.sink w).2)
        rw [hflush] at hwalk
        exact hwalk

end SinkBackend

/-- The visit of a slot whose sink is flushed without a failure. -/
def flushedWell (x : Address × Slot σ) : Visit σ := .call x.1 ⟨.flush x.2.sink, none⟩

/-- The ways that a flush may go. All slots hold nothing and all sinks are flushed; or
    this is so before a slot that holds a failure, which is reported and no longer
    held; or this is so before a slot that holds nothing and whose sink cannot be
    flushed. In each case the slots behind are not visited. -/
inductive FlushCourse (slots slots' : List (Address × Slot σ)) (visits : List (Visit σ)) :
    Option Failure → Prop
  | finished (hnone : ∀ x ∈ slots, x.2.failure = none) (hslots : slots' = slots)
      (hvisits : visits = slots.map flushedWell) : FlushCourse slots slots' visits none
  | reported {before after : List (Address × Slot σ)} {a : Address} {slot : Slot σ}
      {failure : Failure} (heq : slots = before ++ (a, slot) :: after)
      (hnone : ∀ x ∈ before, x.2.failure = none) (hheld : slot.failure = some failure)
      (hslots : slots' = before ++ (a, Slot.new slot.sink) :: after)
      (hvisits : visits = before.map flushedWell ++ [.report a failure]) :
      FlushCourse slots slots' visits (some failure)
  | failed {before after : List (Address × Slot σ)} {a : Address} {slot : Slot σ}
      {failure : Failure} (heq : slots = before ++ (a, slot) :: after)
      (hnone : ∀ x ∈ before, x.2.failure = none) (hheld : slot.failure = none)
      (hslots : slots' = slots)
      (hvisits : visits =
        before.map flushedWell ++ [.call a ⟨.flush slot.sink, some failure⟩]) :
      FlushCourse slots slots' visits (some failure)

namespace FlushCourse

variable {slots slots' : List (Address × Slot σ)} {visits : List (Visit σ)}
  {failure : Option Failure}

/-- A slot that holds nothing may stand before the others. -/
theorem cons (h : FlushCourse slots slots' visits failure) {x : Address × Slot σ}
    (hx : x.2.failure = none) :
    FlushCourse (x :: slots) (x :: slots') (flushedWell x :: visits) failure := by
  cases h with
  | finished hnone hslots hvisits =>
    exact .finished (List.forall_mem_cons.2 ⟨hx, hnone⟩) (by rw [hslots]) (by rw [hvisits]; rfl)
  | reported heq hnone hheld hslots hvisits =>
    exact .reported (by rw [heq]; rfl) (List.forall_mem_cons.2 ⟨hx, hnone⟩) hheld
      (by rw [hslots]; rfl) (by rw [hvisits]; rfl)
  | failed heq hnone hheld hslots hvisits =>
    exact .failed (by rw [heq]; rfl) (List.forall_mem_cons.2 ⟨hx, hnone⟩) hheld
      (by rw [hslots]) (by rw [hvisits]; rfl)

/-- A flush comes to no failure exactly where no slot holds one and every sink is
    flushed. -/
theorem eq_none_iff (h : FlushCourse slots slots' visits failure) :
    failure = none ↔ (∀ x ∈ slots, x.2.failure = none) ∧ visits = slots.map flushedWell := by
  cases h with
  | finished hnone hslots hvisits => exact iff_of_true rfl ⟨hnone, hvisits⟩
  | reported heq hnone hheld hslots hvisits =>
    refine iff_of_false (by simp) ?_
    rintro ⟨hall, -⟩
    rw [heq] at hall
    have hslot := hall _ (List.mem_append_right _ List.mem_cons_self)
    rw [hheld] at hslot
    cases hslot
  | @failed before after a slot failure heq hnone hheld hslots hvisits =>
    refine iff_of_false (by simp) ?_
    rintro ⟨-, hall⟩
    -- the visit that failed stands where one without a failure would stand
    rw [hvisits, heq, List.map_append, List.append_cancel_left_eq, List.map_cons] at hall
    cases hall

end FlushCourse

namespace SinkBackend

/-- A flush goes one of the ways. -/
theorem flushAll_course (b : SinkBackend σ ω) (slots : List (Address × Slot σ)) (w : ω) :
    FlushCourse slots (b.flushAll slots w).slots (b.flushAll slots w).visits
      (b.flushAll slots w).failure := by
  induction slots generalizing w with
  | nil => exact .finished (by simp) rfl rfl
  | cons x rest ih =>
    obtain ⟨a, slot⟩ := x
    rw [flushAll]
    split
    · next failure hheld => exact .reported (List.nil_append _).symm (by simp) hheld rfl rfl
    · next hheld =>
      split
      · exact .failed (List.nil_append _).symm (by simp) hheld rfl rfl
      · next w' _ => exact (ih w').cons hheld

/-- The failure of the first sink that cannot be flushed, one after another. -/
def firstFlushFailure (b : SinkBackend σ ω) : List σ → ω → Option Failure
  | [], _ => none
  | sink :: rest, w =>
    match b.flush sink w with
    | (some failure, _) => some failure
    | (none, w) => b.firstFlushFailure rest w

/-- Behind slots that hold nothing, the failure of the first one that holds one is
    reported if the sinks before it can be flushed. Otherwise the failure of the first
    of these that cannot is reported, and every slot holds what it held. -/
theorem flushAll_of_first_holder (b : SinkBackend σ ω) {before after : List (Address × Slot σ)}
    (a : Address) {slot : Slot σ} {failure : Failure} (hnone : ∀ x ∈ before, x.2.failure = none)
    (hheld : slot.failure = some failure) (w : ω) :
    (b.flushAll (before ++ (a, slot) :: after) w).failure =
        some ((b.firstFlushFailure (before.map fun x => x.2.sink) w).getD failure) ∧
      (b.flushAll (before ++ (a, slot) :: after) w).slots =
        if (b.firstFlushFailure (before.map fun x => x.2.sink) w).isNone then
          before ++ (a, Slot.new slot.sink) :: after
        else before ++ (a, slot) :: after := by
  induction before generalizing w with
  | nil => simp [flushAll, hheld, firstFlushFailure, Slot.new]
  | cons x before ih =>
    obtain ⟨a', slot'⟩ := x
    obtain ⟨hx, hbefore⟩ := List.forall_mem_cons.1 hnone
    rw [List.cons_append, flushAll, List.map_cons, firstFlushFailure]
    split
    · next other hother => exact absurd (hx.symm.trans hother) (by simp)
    · rcases b.flush slot'.sink w with ⟨_ | other, w'⟩
      · obtain ⟨hfailure, hslots⟩ := ih hbefore w'
        refine ⟨hfailure, ?_⟩
        simp only [hslots]
        split <;> rfl
      · exact ⟨rfl, rfl⟩

end SinkBackend

/-- What a flush leaves, and the failure that it comes to. -/
structure FlushTour.Leaves (tour : FlushTour σ ω) (slots : List (Address × Slot σ)) (w : ω)
    (diagnostics : List Diagnostic) (failure : Option Failure) : Prop where
  slots : tour.slots = slots
  world : tour.world = w
  diagnostics : tour.diagnostics = diagnostics
  failure : tour.failure = failure

theorem flushSlots_leaves (b : SinkBackend σ ω) (group index : Nat) (slots : List (Slot σ))
    (w : ω) :
    let flushed := flushSlots b group index slots w
    (b.flushAll (addressSlots group index slots) w).Leaves
      (addressSlots group index flushed.slots) flushed.world flushed.diagnostics
      flushed.failure := by
  induction slots generalizing index w with
  | nil => exact ⟨rfl, rfl, rfl, rfl⟩
  | cons slot rest ih =>
    obtain ⟨sink, held⟩ := slot
    rw [addressSlots_cons, SinkBackend.flushAll, flushSlots]
    cases held with
    | some failure => exact ⟨rfl, rfl, rfl, rfl⟩
    | none =>
      cases hflush : b.flush sink w with
      | mk outcome w' =>
        cases outcome with
        | some failure => exact ⟨rfl, rfl, rfl, rfl⟩
        | none =>
          obtain ⟨hslots, hworld, hreports, hfailure⟩ := ih (index + 1) w'
          exact ⟨congrArg (_ :: ·) hslots, hworld, hreports, hfailure⟩

/-- Whatever its groups, a flush is a tour along all slots. -/
theorem flushGroups_leaves (b : SinkBackend σ ω) (index : Nat) (groups : List (Group σ))
    (w : ω) :
    let flushed := flushGroups b index groups w
    (b.flushAll (addressGroups index groups) w).Leaves
      (addressGroups index flushed.groups) flushed.world flushed.diagnostics
      flushed.failure := by
  induction groups generalizing index w with
  | nil => exact ⟨rfl, rfl, rfl, rfl⟩
  | cons g rest ih =>
    obtain ⟨hslots, hworld, hreports, hfailure⟩ := flushSlots_leaves b index 0 g.slots w
    rw [addressGroups_cons, SinkBackend.flushAll_append, flushGroups]
    cases hcome : (flushSlots b index 0 g.slots w).failure with
    | some failure =>
      simp only [hfailure, hcome]
      exact ⟨congrArg (· ++ _) hslots, hworld, hreports, rfl⟩
    | none =>
      simp only [hfailure, hcome, hslots, hworld, hreports]
      obtain ⟨hslots, hworld, hreports, hfailure⟩ :=
        ih (index + 1) (flushSlots b index 0 g.slots w).world
      exact ⟨congrArg (_ ++ ·) hslots, hworld, congrArg (_ ++ ·) hreports, hfailure⟩

end Logbook
