import Logbook.Router.Basic

/-!
# Segments of a plan

The steps of a plan fall into segments: a new one begins at every encoder that comes
behind an encoder or a sink of the segment so far. `Segmented` says so of a plan and its
segments, and there is exactly one way to cut a plan (`exists_segmented`,
`Segmented.unique`). Every segment is a group of its own, apart from a last one without
sinks (`Segmented.finish_eq`), so no sink is lost (`Segmented.flatMap_sinks`).

`Router.attempts` builds a router by one plan after another. `Router.build_attempts` says
that the first plan with a sink builds it, once and for all.
-/

namespace Logbook

namespace PlanStep

def encoder? : PlanStep σ → Option Encoder
  | .encoder encode => some encode
  | _ => none

def threshold? : PlanStep σ → Option Level
  | .threshold level => some level
  | _ => none

def traceThreshold? : PlanStep σ → Option Level
  | .traceThreshold level => some level
  | _ => none

def addedSinks : PlanStep σ → List σ
  | .sinks added => added
  | _ => []

end PlanStep

/-- Steps of a plan that stand in a row. -/
abbrev PlanSegment (σ : Type) := List (PlanStep σ)

namespace PlanSegment

def encoder? (s : PlanSegment σ) : Option Encoder := (s.filterMap PlanStep.encoder?).getLast?

def threshold? (s : PlanSegment σ) : Option Level := (s.filterMap PlanStep.threshold?).getLast?

def traceThreshold? (s : PlanSegment σ) : Option Level :=
  (s.filterMap PlanStep.traceThreshold?).getLast?

def sinks (s : PlanSegment σ) : List σ := s.flatMap PlanStep.addedSinks

/-- The steps give an encoder or a sink. -/
def isBegun (s : PlanSegment σ) : Bool := s.encoder?.isSome || !s.sinks.isEmpty

/-- The group that the steps describe: the last value of each sort counts, and every
    sink. -/
def group (s : PlanSegment σ) : Group σ where
  encode := s.encoder?.getD (.ofText Template.standard.encode)
  threshold := s.threshold?.getD .debug
  traceThreshold := s.traceThreshold?
  slots := s.sinks.map Slot.new

/-- No encoder comes behind an encoder or a sink. -/
def IsWhole (s : PlanSegment σ) : Prop :=
  ∀ before encode after, s = before ++ .encoder encode :: after → isBegun before = false

/-- The segments that become groups: all but a last one without sinks. -/
def kept (segments : List (PlanSegment σ)) : List (PlanSegment σ) :=
  segments.dropLast ++ (segments.getLast?.filter fun s => !s.sinks.isEmpty).toList

/-- What a plan has of its current group behind the steps. -/
def draft (s : PlanSegment σ) : GroupDraft σ :=
  ⟨s.encoder?, s.threshold?.getD .debug, s.traceThreshold?, s.sinks⟩

end PlanSegment

open PlanSegment

/-- A plan and its segments. A new segment begins at an encoder that comes behind an
    encoder or a sink of the segment before it, and nowhere else. -/
inductive Segmented : List (PlanStep σ) → List (PlanSegment σ) → Prop
  | last {s : PlanSegment σ} : s.IsWhole → Segmented s [s]
  | cut {s : PlanSegment σ} {encode : Encoder} {plan : List (PlanStep σ)}
      {segments : List (PlanSegment σ)} :
      s.IsWhole → s.isBegun = true → Segmented (.encoder encode :: plan) segments →
      Segmented (s ++ .encoder encode :: plan) (s :: segments)

section Cuts

variable {s t : PlanSegment σ} {step : PlanStep σ} {encode : Encoder}

theorem PlanSegment.isWhole_nil : IsWhole ([] : PlanSegment σ) := by
  intro before encode after h
  cases before <;> cases h

theorem PlanSegment.isWhole_singleton (step : PlanStep σ) : IsWhole [step] := by
  intro before encode after h
  cases before with
  | nil => rfl
  | cons first rest =>
    rw [List.cons_append, List.cons.injEq] at h
    exact absurd h.2.symm (List.append_ne_nil_of_right_ne_nil rest (List.cons_ne_nil _ _))

/-- A step may join a segment unless it is an encoder that comes too late. -/
theorem PlanSegment.IsWhole.concat (h : s.IsWhole)
    (hstep : step.encoder? = none ∨ s.isBegun = false) : IsWhole (s ++ [step]) := by
  intro before encode after heq
  rcases List.eq_nil_or_concat after with rfl | ⟨rest, other, rfl⟩
  · obtain ⟨rfl, hlast⟩ := List.append_inj' heq rfl
    cases hlast
    exact hstep.resolve_left (Option.some_ne_none encode)
  · rw [List.concat_eq_append, ← List.cons_append, ← List.append_assoc] at heq
    exact h before encode rest (List.append_inj' heq rfl).1

theorem PlanSegment.IsWhole.not_begun (h : IsWhole (s ++ .encoder encode :: t)) :
    s.isBegun ≠ true := by
  rw [h s encode t rfl]
  exact Bool.false_ne_true

/-- Nothing that comes behind the beginning of the next segment belongs to a whole one. -/
theorem PlanSegment.IsWhole.eq_nil_of_append {more rest : PlanSegment σ}
    (h : IsWhole (s ++ more)) (hbegun : s.isBegun = true)
    (hmore : .encoder encode :: t = more ++ rest) : more = [] := by
  cases more with
  | nil => rfl
  | cons first more =>
    rw [List.cons_append, List.cons.injEq] at hmore
    rw [← hmore.1] at h
    exact absurd hbegun h.not_begun

theorem Segmented.ne_nil {plan : List (PlanStep σ)} {segments : List (PlanSegment σ)}
    (h : Segmented plan segments) : segments ≠ [] := by
  cases h <;> exact List.cons_ne_nil _ _

theorem exists_segmented_append (rest : List (PlanStep σ)) (hs : s.IsWhole) :
    ∃ segments, Segmented (s ++ rest) segments := by
  -- `s` is what stands in the first segment already
  induction rest generalizing s with
  | nil =>
    rw [List.append_nil]
    exact ⟨[s], .last hs⟩
  | cons step rest ih =>
    by_cases hcut : step.encoder? = none ∨ s.isBegun = false
    · have hjoined := ih (hs.concat hcut)
      rwa [List.append_assoc] at hjoined
    · rw [not_or, Bool.not_eq_false] at hcut
      obtain ⟨segments, hsegments⟩ := ih (isWhole_singleton step)
      cases step with
      | encoder encode => exact ⟨s :: segments, .cut hs hcut.2 hsegments⟩
      | threshold | traceThreshold | sinks => exact absurd rfl hcut.1

theorem exists_segmented (plan : List (PlanStep σ)) : ∃ segments, Segmented plan segments :=
  exists_segmented_append plan isWhole_nil

theorem Segmented.unique {plan : List (PlanStep σ)} {segments others : List (PlanSegment σ)}
    (h : Segmented plan segments) (hothers : Segmented plan others) : others = segments := by
  induction h generalizing others with
  | @last s hs =>
    generalize hplan : s = plan at hothers
    cases hothers with
    | last _ => rfl
    | cut _ hbegun _ => exact absurd hbegun (hplan ▸ hs).not_begun
  | @cut s encode plan segments hs hbegun hrest ih =>
    generalize hplan : s ++ .encoder encode :: plan = whole at hothers
    cases hothers with
    | last ht => exact absurd hbegun (hplan ▸ ht : IsWhole (s ++ .encoder encode :: plan)).not_begun
    | @cut t encode' plan' others ht htbegun hothers =>
      -- neither of the two first segments ends inside of the other
      have hsame : s = t ∧ PlanStep.encoder encode :: plan = .encoder encode' :: plan' := by
        rcases List.append_eq_append_iff.1 hplan with ⟨more, rfl, hmore⟩ | ⟨more, rfl, hmore⟩
        · obtain rfl := ht.eq_nil_of_append hbegun hmore
          exact ⟨(List.append_nil s).symm, hmore⟩
        · obtain rfl := hs.eq_nil_of_append htbegun hmore
          exact ⟨List.append_nil t, hmore.symm⟩
      obtain ⟨rfl, hrests⟩ := hsame
      rw [← hrests] at hothers
      rw [ih hothers]

end Cuts

section Groups

variable {s : PlanSegment σ} {plan : List (PlanStep σ)} {segments : List (PlanSegment σ)}

theorem PlanSegment.sinks_append (s t : PlanSegment σ) : sinks (s ++ t) = s.sinks ++ t.sinks :=
  List.flatMap_append

theorem PlanSegment.kept_cons (s : PlanSegment σ) (h : segments ≠ []) :
    kept (s :: segments) = s :: kept segments := by
  obtain ⟨t, rest, rfl⟩ := List.exists_cons_of_ne_nil h
  rfl

theorem PlanSegment.kept_singleton (s : PlanSegment σ) :
    kept [s] = if s.sinks.isEmpty then [] else [s] := by
  cases hsinks : s.sinks <;> simp [kept, hsinks]

/-- What a plan does at a step: it begins a new group, or the step joins the current
    one. -/
theorem Plan.apply_draft (groups : List (Group σ)) (s : PlanSegment σ) (step : PlanStep σ) :
    (⟨groups, s.draft⟩ : Plan σ).apply step =
      if step.encoder?.isSome && s.isBegun then ⟨groups ++ [s.group], draft [step]⟩
      else ⟨groups, draft (s ++ [step])⟩ := by
  cases step with
  | encoder encode =>
    have hbegun : s.draft.isBegun = s.isBegun := rfl
    simp only [apply, hbegun, PlanStep.encoder?, Option.isSome_some, Bool.true_and]
    split
    · rfl
    · simp [draft, PlanSegment.encoder?, PlanSegment.threshold?, PlanSegment.traceThreshold?,
        PlanSegment.sinks, PlanStep.encoder?, PlanStep.threshold?, PlanStep.traceThreshold?,
        PlanStep.addedSinks]
  | threshold level | traceThreshold level | sinks added =>
    simp [apply, draft, PlanSegment.encoder?, PlanSegment.threshold?, PlanSegment.traceThreshold?,
      PlanSegment.sinks, PlanStep.encoder?, PlanStep.threshold?, PlanStep.traceThreshold?,
      PlanStep.addedSinks]

/-- The steps of a whole segment stay in one group. -/
theorem Plan.foldl_apply_whole (groups : List (Group σ)) (s rest : PlanSegment σ)
    (h : IsWhole (s ++ rest)) :
    rest.foldl Plan.apply ⟨groups, s.draft⟩ = ⟨groups, draft (s ++ rest)⟩ := by
  induction rest generalizing s with
  | nil => rw [List.append_nil]; rfl
  | cons step rest ih =>
    have hjoins : (step.encoder?.isSome && s.isBegun) = false := by
      cases step with
      | encoder encode => rw [h s encode rest rfl, Bool.and_false]
      | threshold | traceThreshold | sinks => rfl
    rw [List.append_cons] at h ⊢
    rw [List.foldl_cons, apply_draft, hjoins, if_neg Bool.false_ne_true]
    exact ih (s ++ [step]) h

theorem Segmented.finish_foldl (h : Segmented plan segments) (groups : List (Group σ)) :
    (plan.foldl Plan.apply ⟨groups, .new⟩).finish = groups ++ (kept segments).map group := by
  have hnew : (GroupDraft.new : GroupDraft σ) = draft [] := rfl
  induction h generalizing groups with
  | @last s hs =>
    rw [hnew, Plan.foldl_apply_whole groups [] s hs, List.nil_append, kept_singleton]
    change (if s.sinks.isEmpty then groups else groups ++ [s.group]) = _
    split
    · exact (List.append_nil groups).symm
    · rfl
  | @cut s encode plan segments hs hbegun hrest ih =>
    -- the encoder ends the group of the first segment and begins the current one
    have hfirst : (.encoder encode :: plan : PlanSegment σ).foldl Plan.apply ⟨groups, s.draft⟩ =
        (.encoder encode :: plan : PlanSegment σ).foldl Plan.apply
          ⟨groups ++ [s.group], .new⟩ := by
      rw [List.foldl_cons, Plan.apply_draft, hbegun]
      rfl
    rw [List.foldl_append, hnew, Plan.foldl_apply_whole groups [] s hs, List.nil_append, hfirst,
      ih, kept_cons s hrest.ne_nil, List.map_cons, List.append_assoc, List.singleton_append]

theorem Segmented.finish_eq (h : Segmented plan segments) :
    (Plan.ofSteps plan).finish = (kept segments).map group :=
  h.finish_foldl []

/-- Every sink of a plan is in the group of its segment. -/
theorem Segmented.flatMap_sinks (h : Segmented plan segments) :
    ((kept segments).map group).flatMap Group.sinks = sinks plan := by
  have hgroup : ∀ s : PlanSegment σ, s.group.sinks = s.sinks := fun s => by
    simp [Group.sinks, group, Slot.new, Function.comp_def]
  induction h with
  | @last s hs =>
    rw [kept_singleton]
    split
    · next hempty => exact (List.isEmpty_iff.1 hempty).symm
    · rw [List.map_singleton, List.flatMap_singleton, hgroup]
  | @cut s encode plan segments hs hbegun hrest ih =>
    rw [kept_cons s hrest.ne_nil, List.map_cons, List.flatMap_cons, hgroup, ih, sinks_append]

end Groups

namespace Router

/-- What is left of a router that was to be built by a plan. A build that fails leaves
    nothing new, so the router is used as it was. -/
def attempt (r : Router σ) (plan : List (PlanStep σ)) : Router σ :=
  match r.build plan with
  | .ok (built, _) => built
  | .error _ => r

/-- What is left of a router that was to be built by one plan after another. -/
def attempts (r : Router σ) (plans : List (List (PlanStep σ))) : Router σ := plans.foldl attempt r

variable {r built : Router σ} {plan : List (PlanStep σ)} {segments : List (PlanSegment σ)}

theorem attempts_cons (r : Router σ) (plan : List (PlanStep σ)) (plans : List (List (PlanStep σ))) :
    r.attempts (plan :: plans) = (r.attempt plan).attempts plans := rfl

theorem attempts_append (r : Router σ) (plans more : List (List (PlanStep σ))) :
    r.attempts (plans ++ more) = (r.attempts plans).attempts more := List.foldl_append

/-- A router without a table is built by the groups of the segments, if there is a
    sink. -/
theorem build_eq (h : r.hasTable = false) (hsegments : Segmented plan segments) :
    r.build plan =
      if (sinks plan).isEmpty then .error .noDestinations
      else
        let table := Table.ofGroups ((kept segments).map group)
        .ok ({ r with table := some table },
          .routerBuilt table.groups.length table.sinkTotal table.threshold) := by
  have hnone : ((kept segments).map group).all (fun g => g.slots.isEmpty) =
      (sinks plan).isEmpty := by
    rw [← hsegments.flatMap_sinks, Bool.eq_iff_iff]
    simp [Group.sinks]
  rw [build, install, hsegments.finish_eq, h, if_neg Bool.false_ne_true, hnone]

theorem attempts_of_hasTable (h : r.hasTable = true) (plans : List (List (PlanStep σ))) :
    r.attempts plans = r := by
  induction plans with
  | nil => rfl
  | cons plan plans ih =>
    have hbuild : r.build plan = .error .alreadyBuilt := if_pos h
    rw [attempts_cons, attempt, hbuild]
    exact ih

/-- A router has a table behind a build if it had one or the build succeeds, and
    otherwise it is the same router. -/
theorem hasTable_attempt (r : Router σ) (plan : List (PlanStep σ)) :
    ((r.attempt plan).hasTable = true ↔ r.hasTable = true ∨ ∃ result, r.build plan = .ok result) ∧
      ((r.attempt plan).hasTable = false → r.attempt plan = r) := by
  obtain ⟨segments, hsegments⟩ := exists_segmented plan
  unfold attempt
  cases htable : r.hasTable with
  | true =>
    have hbuild : r.build plan = .error .alreadyBuilt := if_pos htable
    simp [hbuild, htable]
  | false =>
    have hnone : r.table = none := by simpa [hasTable] using htable
    rw [build_eq htable hsegments]
    cases (sinks plan).isEmpty <;> simp [hasTable, hnone]

/-- A router has a table behind some builds if it had one or one of them succeeds, and
    otherwise it is the same router. -/
theorem hasTable_attempts (r : Router σ) (plans : List (List (PlanStep σ))) :
    ((r.attempts plans).hasTable = true ↔ r.hasTable = true ∨
      ∃ before earlier after result, plans = before ++ earlier :: after ∧
        (r.attempts before).build earlier = .ok result) ∧
      ((r.attempts plans).hasTable = false → r.attempts plans = r) := by
  induction plans generalizing r with
  | nil => simp [attempts]
  | cons plan plans ih =>
    obtain ⟨hsome, hsame⟩ := hasTable_attempt r plan
    obtain ⟨hsomes, hsames⟩ := ih (r.attempt plan)
    rw [attempts_cons]
    refine ⟨?_, ?_⟩
    · rw [hsomes, hsome, or_assoc]
      refine or_congr_right ?_
      constructor
      · rintro (⟨result, hresult⟩ | ⟨before, earlier, after, result, rfl, hresult⟩)
        · exact ⟨[], plan, plans, result, rfl, hresult⟩
        · exact ⟨plan :: before, earlier, after, result, rfl, hresult⟩
      · rintro ⟨before, earlier, after, result, hplans, hresult⟩
        cases before with
        | nil =>
          cases hplans
          exact .inl ⟨result, hresult⟩
        | cons first before =>
          cases hplans
          exact .inr ⟨before, earlier, after, result, rfl, hresult⟩
    · intro hnone
      have hsamePlans := hsames hnone
      rw [hsamePlans] at hnone ⊢
      exact hsame hnone

/-- Behind any builds the next one fails as it comes too late if and only if one of them
    succeeded, or the router had a table from the start. Until then the router is what it
    was, and the build fails for want of a sink or makes a table, which stays for ever: a
    group for every segment of the plan, so that the sinks are all there in their order. -/
theorem build_attempts (r : Router σ) (plans : List (List (PlanStep σ)))
    (plan : List (PlanStep σ)) :
    let reached := r.attempts plans
    let isBuilt := r.hasTable = true ∨
      ∃ before earlier after result, plans = before ++ earlier :: after ∧
        (r.attempts before).build earlier = .ok result
    (isBuilt → reached.build plan = .error .alreadyBuilt) ∧
    (¬isBuilt → reached = r) ∧
    (¬isBuilt → sinks plan = [] → reached.build plan = .error .noDestinations) ∧
    (¬isBuilt → sinks plan ≠ [] →
      ∃ segments, (∀ others, Segmented plan others ↔ others = segments) ∧
        let table := Table.ofGroups ((kept segments).map group)
        let built := { r with table := some table }
        reached.build plan =
          .ok (built, .routerBuilt table.groups.length table.sinkTotal table.threshold) ∧
        table.groups.flatMap Group.sinks = sinks plan ∧
        ∀ more, r.attempts (plans ++ plan :: more) = built) ∧
    ∀ error, reached.build plan = .error error → reached.attempt plan = reached := by
  intro reached isBuilt
  obtain ⟨hbuilt, hsame⟩ := hasTable_attempts r plans
  have hnone : ¬isBuilt → reached = r ∧ r.hasTable = false := by
    intro hnot
    have hreached : reached.hasTable = false := Bool.eq_false_iff.2 fun h => hnot (hbuilt.1 h)
    have hr : reached = r := hsame hreached
    exact ⟨hr, hr ▸ hreached⟩
  obtain ⟨segments, hsegments⟩ := exists_segmented plan
  refine ⟨fun h => if_pos (hbuilt.2 h), fun h => (hnone h).1, ?_, ?_, ?_⟩
  · intro hnot hsinks
    obtain ⟨hr, htable⟩ := hnone hnot
    rw [hr, build_eq htable hsegments, hsinks]
    rfl
  · intro hnot hsinks
    obtain ⟨hr, htable⟩ := hnone hnot
    have hbuild := build_eq htable hsegments
    rw [List.isEmpty_eq_false_iff.2 hsinks, if_neg Bool.false_ne_true] at hbuild
    refine ⟨segments, fun others => ⟨hsegments.unique, fun h => h ▸ hsegments⟩, ?_,
      hsegments.flatMap_sinks, ?_⟩
    · rw [hr]
      exact hbuild
    · intro more
      have hreached : r.attempts plans = r := hr
      rw [attempts_append, attempts_cons, hreached, attempt, hbuild]
      exact attempts_of_hasTable rfl more
  · intro error herror
    rw [attempt, herror]

end Router

end Logbook
