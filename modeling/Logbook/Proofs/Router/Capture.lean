import Logbook.Proofs.Router.Table
import Logbook.Sink.Memory

/-!
# Forced captures

The first group that an event reaches and that wants a stack trace makes the event have
one captured, if it has none. The groups before it get the event as it was, and those from
it on get the event with the captured frames (`Table.dispatch_forced`).

Whether a group forces a capture is asked again behind every capture, and one that finds
no frames leaves the answer as it was. `Table.captures_dispatch` counts the captures of a
dispatch: there is more than one only if nothing is found.
-/

namespace Logbook

/-- The event, which has no trace and is linked to no error with a trace, reaches a sink of
    the group, and the group wants a stack trace of it. -/
def Group.forces (g : Group σ) (e : Event) : Bool :=
  !e.hasTrace && (g.isReached e.level && g.wantsTrace e.level)

/-- What the sinks of the group get of the event. -/
def Group.outputs (g : Group σ) (e : Event) : List (σ × List UInt8) :=
  if e.level.passes g.threshold then g.sinks.map fun sink => (sink, g.encode e) else []

/-- The event with the frames as the trace of its own record, whose entries and cursor are
    brought inside of it. -/
def Event.onTrace (e : Event) (frames : Trace) : Event :=
  let last := frames.length - 1
  { e with
    message :=
      { e.message with
        trace := frames
        messages := e.message.messages.map fun m => { m with frame := min m.frame last }
        fields := e.message.fields.map fun f => f.atFrame (min f.frame last)
        cursor := min e.message.cursor last } }

namespace Event

variable {e : Event} {captured : Trace}

theorem hasTrace_message (h : e.hasTrace = false) : e.message.hasTrace = false :=
  (Bool.or_eq_false_iff.1 h).1

theorem trace_eq_nil (h : e.hasTrace = false) : e.message.trace = [] := by
  simpa [Record.hasTrace] using hasTrace_message h

theorem capture_eq_onTrace (h : e.hasTrace = false) (hcaptured : captured ≠ []) :
    e.capture captured = e.onTrace captured := by
  have htrace := trace_eq_nil h
  simp [capture, Record.capture, Record.hasTrace, htrace, Record.clampEntries, Record.clamp,
    hcaptured, onTrace]

theorem capture_nil (h : e.hasTrace = false) : e.capture [] = e := by
  rw [capture, Record.capture, hasTrace_message h, if_neg Bool.false_ne_true, List.append_nil,
    Record.clampEntries_of_nil (trace_eq_nil h)]

theorem hasTrace_onTrace (hcaptured : captured ≠ []) : (e.onTrace captured).hasTrace = true := by
  simp [hasTrace, onTrace, Record.hasTrace, hcaptured]

end Event

section Forcing

variable {captured : Trace} {past groups : List (Group σ)} {e : Event} {g : Group σ}

theorem Group.isReached_captures_eq_forces (g : Group σ) (e : Event) :
    (g.isReached e.level && g.captures e) = g.forces e := by
  rw [captures, forces, ← Bool.and_assoc, Bool.and_comm]

theorem Group.hasTrace_of_forces (h : g.forces e = true) : e.hasTrace = false := by
  rw [forces, Bool.and_eq_true, Bool.not_eq_true'] at h
  exact h.1

theorem Event.behind_eq (captured : Trace) (past : List (Group σ)) :
    e.behind captured past = if past.any (·.forces e) then e.capture captured else e := by
  simp only [behind, Group.isReached_captures_eq_forces]

theorem map_snd_addressSlots (group index : Nat) (slots : List (Slot σ)) :
    (addressSlots group index slots).map Prod.snd = slots := by
  induction slots generalizing index with
  | nil => rfl
  | cons slot rest ih => rw [addressSlots_cons, List.map_cons, ih]

theorem Group.mailing_eq_outputs (g : Group σ) (index : Nat) (e : Event) :
    (g.parcels index e).map (fun p => (p.sink, p.bytes)) = g.outputs e := by
  unfold parcels outputs
  split
  · have hslots := congrArg (List.map fun slot : Slot σ => (slot.sink, g.encode e))
      (map_snd_addressSlots index 0 g.slots)
    rw [List.map_map] at hslots ⊢
    rw [sinks, List.map_map]
    exact hslots
  · rfl

theorem mailing_cons (captured : Trace) (past : List (Group σ)) (g : Group σ)
    (rest : List (Group σ)) (e : Event) :
    mailing captured past (g :: rest) e =
      g.outputs (e.behind captured (past ++ [g])) ++ mailing captured (past ++ [g]) rest e := by
  rw [mailing, parcels_cons, List.map_append, Group.mailing_eq_outputs]
  rfl

/-- Behind a group that forces a capture every group gets the event with the captured
    frames. -/
theorem mailing_behind (captured : Trace) (groups : List (Group σ))
    (hpast : past.any (·.forces e) = true) :
    mailing captured past groups e = groups.flatMap (·.outputs (e.capture captured)) := by
  induction groups generalizing past with
  | nil => rfl
  | cons g rest ih =>
    have hpast' : (past ++ [g]).any (·.forces e) = true := by
      rw [List.any_append, hpast, Bool.true_or]
    have hevent : e.behind captured (past ++ [g]) = e.capture captured := by
      rw [Event.behind_eq, if_pos hpast']
    rw [mailing_cons, hevent, ih hpast', List.flatMap_cons]

/-- As long as no group forces a capture the groups get the event as it is. -/
theorem mailing_append (captured : Trace) {before : List (Group σ)}
    (hbefore : (past ++ before).any (·.forces e) = false) (rest : List (Group σ)) :
    mailing captured past (before ++ rest) e =
      before.flatMap (·.outputs e) ++ mailing captured (past ++ before) rest e := by
  induction before generalizing past with
  | nil => rw [List.append_nil]; rfl
  | cons g before ih =>
    rw [List.append_cons] at hbefore
    have hpast : (past ++ [g]).any (·.forces e) = false := by
      rw [List.any_append, Bool.or_eq_false_iff] at hbefore
      exact hbefore.1
    have hevent : e.behind captured (past ++ [g]) = e := by
      rw [Event.behind_eq, hpast, if_neg Bool.false_ne_true]
    rw [List.cons_append, mailing_cons, hevent, ih hbefore, ← List.append_cons, List.flatMap_cons,
      List.append_assoc]

/-- A group that forces a capture adds one, and hands the captured frames on. -/
theorem captures_deliver_cons (b : SinkBackend σ ω) (captured : Trace) (index : Nat)
    (g : Group σ) (rest : List (Group σ)) (e : Event) (w : ω) :
    ∃ w', (deliver b captured index (g :: rest) e w).captures =
      (deliver b captured (index + 1) rest (if g.forces e then e.capture captured else e)
        w').captures + if g.forces e then 1 else 0 := by
  rw [deliver, ← Group.isReached_captures_eq_forces]
  cases g.isReached e.level with
  | false => exact ⟨w, rfl⟩
  | true => exact ⟨_, rfl⟩

/-- With frames a delivery captures at most once, and without any frames once for each
    group that wants them. -/
theorem captures_deliver (b : SinkBackend σ ω) (captured : Trace) (index : Nat)
    (groups : List (Group σ)) (e : Event) (w : ω) :
    (deliver b captured index groups e w).captures =
      if captured = [] then groups.countP (·.forces e) else min (groups.countP (·.forces e)) 1 := by
  induction groups generalizing index e w with
  | nil => simp [deliver]
  | cons g rest ih =>
    obtain ⟨w', hcaptures⟩ := captures_deliver_cons b captured index g rest e w
    rw [hcaptures, ih, List.countP_cons]
    cases hforces : g.forces e with
    | false => simp
    | true =>
      have hnone : e.hasTrace = false := Group.hasTrace_of_forces hforces
      by_cases hcaptured : captured = []
      · -- the event is what it was, so the groups behind want frames as before
        simp only [hcaptured, if_true, Event.capture_nil hnone]
      · have hquiet : rest.countP (·.forces (e.onTrace captured)) = 0 := by
          rw [List.countP_eq_zero]
          intro g' _
          rw [Group.forces, Event.hasTrace_onTrace hcaptured]
          exact Bool.false_ne_true
        simp only [if_neg hcaptured, if_true, Event.capture_eq_onTrace hnone hcaptured, hquiet]
        omega

end Forcing

namespace Table

variable {groups : List (Group σ)}

/-- A dispatch with the table of some groups is a delivery to these. -/
theorem dispatch_ofGroups (b : SinkBackend σ ω) (captured : Trace) (groups : List (Group σ))
    (e : Event) (w : ω) :
    ((ofGroups groups).dispatch b captured e w).2 = deliver b captured 0 groups e w := by
  rw [dispatch_eq_deliver]
  · rfl
  · intro g hg hpasses
    have hmem : g ∈ groups := hg
    have hthreshold := passes_threshold e.level (List.ne_nil_of_mem hmem)
    exact hthreshold.trans (List.any_eq_true.2 ⟨g, hmem, hpasses⟩)

theorem written_dispatch (b : SinkBackend σ ω) (captured : Trace) (groups : List (Group σ))
    (e : Event) (w : ω × List (SinkCall σ)) :
    ((ofGroups groups).dispatch b.logged captured e w).2.world.2.filterMap SinkCall.written? =
      w.2.filterMap SinkCall.written? ++ mailing captured [] groups e := by
  have hdelivers : Delivers b.logged 0 groups w (parcels captured [] groups e)
      (e.behind captured groups) (deliver b.logged captured 0 groups e w) :=
    deliver_delivers b.logged captured [] groups e w
  rw [dispatch_ofGroups, hdelivers.walk.log_eq, List.filterMap_append,
    b.logged.written_writeAll, mailing]

/-- If a group forces a capture, the first one that does is the first one to get the event
    with the captured frames, and so does every group behind it. Otherwise nothing is
    captured and every group gets the event as it is. -/
theorem dispatch_forced (b : SinkBackend σ ω) (groups : List (Group σ)) (e : Event)
    {captured : Trace} (hcaptured : captured ≠ []) (w : ω × List (SinkCall σ)) :
    let delivery := ((ofGroups groups).dispatch b.logged captured e w).2
    let written := delivery.world.2.filterMap SinkCall.written?
    let past := w.2.filterMap SinkCall.written?
    (∀ before g after, groups = before ++ g :: after → (∀ g' ∈ before, g'.forces e = false) →
      g.forces e = true →
        written = past ++ (before.flatMap (·.outputs e) ++
          (g :: after).flatMap (·.outputs (e.onTrace captured))) ∧ delivery.captures = 1) ∧
    ((∀ g ∈ groups, g.forces e = false) →
      written = past ++ groups.flatMap (·.outputs e) ∧ delivery.captures = 0) := by
  intro delivery written past
  have hwritten : written = past ++ mailing captured [] groups e :=
    written_dispatch b captured groups e w
  have hcaptures : delivery.captures = min (groups.countP (·.forces e)) 1 := by
    have hcount := captures_deliver b.logged captured 0 groups e w
    rw [if_neg hcaptured, ← dispatch_ofGroups] at hcount
    exact hcount
  constructor
  · rintro before g after rfl hbefore hforces
    have hquiet : ([] ++ before).any (·.forces e) = false :=
      List.any_eq_false.2 fun g' hg' => by simp [hbefore g' hg']
    have hpast : (before ++ [g]).any (·.forces e) = true := by
      rw [List.any_append, List.any_cons, hforces, Bool.true_or, Bool.or_true]
    have hcapture : e.capture captured = e.onTrace captured :=
      Event.capture_eq_onTrace (Group.hasTrace_of_forces hforces) hcaptured
    have hgroup : e.behind captured (before ++ [g]) = e.onTrace captured := by
      rw [Event.behind_eq, if_pos hpast, hcapture]
    refine ⟨?_, ?_⟩
    · rw [hwritten, mailing_append captured hquiet (g :: after), List.nil_append, mailing_cons,
        hgroup, mailing_behind captured after hpast, hcapture, List.flatMap_cons]
    · have hsome : 0 < (before ++ g :: after).countP (·.forces e) :=
        List.countP_pos_iff.2 ⟨g, List.mem_append_right before List.mem_cons_self, hforces⟩
      rw [hcaptures]
      omega
  · intro hnone
    have hquiet : ([] ++ groups).any (·.forces e) = false :=
      List.any_eq_false.2 fun g hg => by simp [hnone g hg]
    have hall := mailing_append captured hquiet []
    rw [List.append_nil] at hall
    refine ⟨?_, ?_⟩
    · rw [hwritten, hall]
      exact congrArg (past ++ ·) (List.append_nil _)
    · rw [hcaptures, List.countP_eq_zero.2 fun g hg => by simp [hnone g hg]]
      rfl

/-- A group that accepts every event and writes the length of the trace and the cursor. -/
def outlining (traceThreshold : Option Level) : Group Unit where
  encode e := [e.message.trace.length.toUInt8, e.message.cursor.toUInt8]
  threshold := .debug
  traceThreshold := traceThreshold
  slots := [.new ()]

/-- The second of three groups forces a capture of two frames. The cursor, which is at the
    fifth frame, is brought to the last of them. -/
theorem dispatch_forced_second :
    let frames : Trace := [⟨"work", "lib.rs", 7⟩, ⟨"main", "main.rs", 3⟩]
    let e : Event := { Event.new .error default with message := Record.empty.moveTo 5 }
    let delivery := ((ofGroups [outlining none, outlining (some .warning), outlining none]).dispatch
      Memory.backend.logged frames e (.empty, [])).2
    frames ≠ [] ∧ delivery.world.2.filterMap SinkCall.written? =
      [((), [0, 5]), ((), [2, 1]), ((), [2, 1])] ∧ delivery.captures = 1 := by
  intro frames e delivery
  have hframes : frames ≠ [] := List.cons_ne_nil _ _
  obtain ⟨hforced, -⟩ := dispatch_forced Memory.backend
    [outlining none, outlining (some .warning), outlining none] e hframes (.empty, [])
  have hquiet : ∀ g' ∈ [outlining none], g'.forces e = false := List.forall_mem_singleton.2 rfl
  obtain ⟨hwritten, hcaptures⟩ :=
    hforced [outlining none] (outlining (some .warning)) [outlining none] rfl hquiet rfl
  exact ⟨hframes, hwritten, hcaptures⟩

/-- If frames are found a dispatch captures once. If none are found the event wants them as
    before, and every group that forces a capture makes another one: what bounds the captures
    of a dispatch is that there are frames, or that only one group wants them. -/
theorem captures_dispatch (b : SinkBackend σ ω) (groups : List (Group σ)) (e : Event)
    (captured : Trace) (w : ω) :
    let captures := ((ofGroups groups).dispatch b captured e w).2.captures
    let forcing := groups.countP (·.forces e)
    captures = (if captured = [] then forcing else min forcing 1) ∧
      (captures ≤ 1 ↔ captured ≠ [] ∨ forcing ≤ 1) := by
  intro captures forcing
  have hcaptures : captures = if captured = [] then forcing else min forcing 1 := by
    have hcount := captures_deliver b captured 0 groups e w
    rw [← dispatch_ofGroups] at hcount
    exact hcount
  refine ⟨hcaptures, ?_⟩
  rw [hcaptures]
  split
  · next hnil => simp [hnil]
  · next hcaptured => exact iff_of_true (Nat.min_le_right forcing 1) (.inl hcaptured)

/-- Two groups want a stack trace, and no frames are found. -/
theorem captures_twice :
    ((ofGroups [outlining (some .debug), outlining (some .debug)]).dispatch Memory.backend []
      (.new .error default) .empty).2.captures = 2 := rfl

end Table

end Logbook
