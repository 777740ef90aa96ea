import Logbook.Proofs.Router.Walk

/-!
# Parcels

A dispatch makes a parcel for every sink of every group that the event reaches: the
octets that the encoder of the group makes of the event, addressed to the slot of
the sink. `parcels` are those of an event, in their order; they depend on no sink and
on no failure that a slot holds. `deliver_delivers` says that delivering an event is
writing its parcels one after another, which is a walk along all slots.
-/

namespace Logbook

namespace Record

/-- Without a trace nothing has to be brought inside of it. -/
theorem clampEntries_of_nil {r : Record} (h : r.trace = []) : r.clampEntries = r := by
  have hclamp : ∀ frame, r.clamp frame = frame := fun frame => by simp [clamp, h]
  simp only [clampEntries, hclamp, Field.atFrame, List.map_id']

/-- What was captured once is not captured again. -/
theorem capture_capture (r : Record) (captured : Trace) :
    (r.capture captured).capture captured = r.capture captured := by
  cases htrace : r.hasTrace with
  | true => simp [capture, htrace]
  | false =>
    have hnil : r.trace = [] := by simpa [hasTrace] using htrace
    cases captured with
    | nil =>
      have hsame : r.capture [] = r := by
        rw [capture, htrace, List.append_nil]
        exact clampEntries_of_nil hnil
      rw [hsame, hsame]
    | cons frame rest =>
      have hcaptured : (r.capture (frame :: rest)).hasTrace = true := by
        simp [capture, hnil, hasTrace, clampEntries]
      rw [capture, if_pos hcaptured]

end Record

namespace Event

theorem capture_capture (e : Event) (captured : Trace) :
    (e.capture captured).capture captured = e.capture captured := by
  simp only [capture, Record.capture_capture]

/-- The event as the groups behind some others get it: with the captured frames, if
    one of those had a stack captured. -/
def behind (e : Event) (captured : Trace) (past : List (Group σ)) : Event :=
  if past.any fun g => g.isReached e.level && g.captures e then e.capture captured else e

variable {e : Event} {captured : Trace} {past : List (Group σ)} {g : Group σ}

@[simp] theorem level_behind : (e.behind captured past).level = e.level := by
  unfold behind
  split <;> rfl

/-- A group that has a stack captured gets the event with the captured frames. -/
theorem behind_concat (hreached : g.isReached e.level = true) :
    e.behind captured (past ++ [g]) =
      if g.captures (e.behind captured past) then (e.behind captured past).capture captured
      else e.behind captured past := by
  unfold behind
  rw [List.any_append, List.any_cons, List.any_nil, Bool.or_false, hreached, Bool.true_and]
  cases past.any fun g => g.isReached e.level && g.captures e with
  | true =>
    rw [Bool.true_or, if_pos rfl, capture_capture]
    exact (ite_self _).symm
  | false => rfl

theorem behind_concat_of_not_reached (hreached : g.isReached e.level = false) :
    e.behind captured (past ++ [g]) = e.behind captured past := by
  simp [behind, hreached]

end Event

/-- The octets of an event, and the slot whose sink is to get them. -/
structure Parcel (σ : Type) where
  address : Address
  sink : σ
  bytes : List UInt8

/-- The visit that delivers a parcel, with its outcome. -/
def Parcel.visit (p : Parcel σ) (failure : Option Failure) : Visit σ :=
  .call p.address ⟨.write p.sink p.bytes, failure⟩

/-- The parcels of a group, which has the given index: all that its encoder makes of
    the event, once for each of its sinks, if the event passes its threshold. -/
def Group.parcels (g : Group σ) (index : Nat) (e : Event) : List (Parcel σ) :=
  if e.level.passes g.threshold then
    (addressSlots index 0 g.slots).map fun (a, slot) => ⟨a, slot.sink, g.encode e⟩
  else []

/-- The parcels of groups behind some others, one group after another. Each gets the
    event with the captured frames if a group before it or the group itself had a
    stack captured. -/
def parcels (captured : Trace) (past groups : List (Group σ)) (e : Event) : List (Parcel σ) :=
  (withPast past groups).flatMap fun (past, g) =>
    g.parcels past.length (e.behind captured (past ++ [g]))

theorem parcels_cons (captured : Trace) (past : List (Group σ)) (g : Group σ)
    (rest : List (Group σ)) (e : Event) :
    parcels captured past (g :: rest) e =
      g.parcels past.length (e.behind captured (past ++ [g])) ++
        parcels captured (past ++ [g]) rest e := rfl

/-- What the sinks get of an event: the octets of its parcels, in their order. -/
def mailing (captured : Trace) (past groups : List (Group σ)) (e : Event) :
    List (σ × List UInt8) :=
  (parcels captured past groups e).map fun p => (p.sink, p.bytes)

/-- There are no parcels of a group that the event does not reach. -/
theorem Group.parcels_eq_nil_iff {g : Group σ} {e : Event} (index : Nat) :
    g.parcels index e = [] ↔ g.isReached e.level = false := by
  unfold parcels isReached
  cases hslots : g.slots with
  | nil => simp [addressSlots]
  | cons slot rest => simp [addressSlots_cons]

theorem parcels_eq_nil_iff (captured : Trace) (past groups : List (Group σ)) (e : Event) :
    parcels captured past groups e = [] ↔ ∀ g ∈ groups, g.isReached e.level = false := by
  induction groups generalizing past with
  | nil => exact iff_of_true rfl (fun _ h => absurd h List.not_mem_nil)
  | cons g rest ih =>
    rw [parcels_cons, List.append_eq_nil_iff, ih, Group.parcels_eq_nil_iff, Event.level_behind,
      List.forall_mem_cons]

namespace SinkBackend

variable {b : SinkBackend σ ω}

/-- Writes parcels one after another: the visits that this makes, and the world
    behind them. -/
def writeAll (b : SinkBackend σ ω) : List (Parcel σ) → ω → List (Visit σ) × ω
  | [], w => ([], w)
  | p :: rest, w =>
    let written := b.write p.sink p.bytes w
    let others := b.writeAll rest written.2
    (p.visit written.1 :: others.1, others.2)

theorem writeAll_append (b : SinkBackend σ ω) (xs ys : List (Parcel σ)) (w : ω) :
    b.writeAll (xs ++ ys) w =
      ((b.writeAll xs w).1 ++ (b.writeAll ys (b.writeAll xs w).2).1,
        (b.writeAll ys (b.writeAll xs w).2).2) := by
  induction xs generalizing w with
  | nil => rfl
  | cons p xs ih => simp [writeAll, ih]

/-- Whatever comes of the writes, the parcels are what is written. -/
theorem written_writeAll (b : SinkBackend σ ω) (ps : List (Parcel σ)) (w : ω) :
    ((b.writeAll ps w).1.filterMap Visit.call?).filterMap SinkCall.written? =
      ps.map fun p => (p.sink, p.bytes) := by
  induction ps generalizing w with
  | nil => rfl
  | cons p ps ih =>
    rw [List.map_cons, ← ih (b.write p.sink p.bytes w).2]
    rfl

/-- A write reports no failure that is held. -/
theorem reported?_writeAll (b : SinkBackend σ ω) (a : Address) (ps : List (Parcel σ)) (w : ω) :
    ∀ v ∈ (b.writeAll ps w).1, v.reported? a = none := by
  induction ps generalizing w with
  | nil => exact fun _ h => absurd h List.not_mem_nil
  | cons p ps ih => exact List.forall_mem_cons.2 ⟨rfl, ih _⟩

end SinkBackend

theorem writeSlots_walk (b : SinkBackend σ ω) (group : Nat) (bytes : List UInt8) (index : Nat)
    (slots : List (Slot σ)) (w : ω) :
    let written := writeSlots b group bytes index slots w
    let visited := b.writeAll
      ((addressSlots group index slots).map fun (a, slot) => ⟨a, slot.sink, bytes⟩) w
    written.world = visited.2 ∧
      Walk b (addressSlots group index slots) w visited.1 written.diagnostics
        (addressSlots group index written.slots) visited.2 := by
  induction slots generalizing index w with
  | nil => exact ⟨rfl, .done w⟩
  | cons slot rest ih =>
    obtain ⟨hworld, hwalk⟩ := ih (index + 1) (b.write slot.sink bytes w).2
    simp only [writeSlots, Slot.write_eq b ⟨group, index⟩]
    exact ⟨hworld, .write bytes hwalk⟩

/-- A delivery to groups, of which the first has the given index, writes parcels one
    after another, and leaves the event as it is given. -/
structure Delivers (b : SinkBackend σ ω) (index : Nat) (groups : List (Group σ)) (w : ω)
    (ps : List (Parcel σ)) (e : Event) (delivery : Delivery σ ω) : Prop where
  event : delivery.event = e
  world : delivery.world = (b.writeAll ps w).2
  walk : Walk b (addressGroups index groups) w (b.writeAll ps w).1 delivery.diagnostics
    (addressGroups index delivery.groups) delivery.world

namespace Delivers

variable {b : SinkBackend σ ω} {index : Nat} {g : Group σ} {rest : List (Group σ)} {w : ω}
  {ps : List (Parcel σ)} {e : Event} {delivery : Delivery σ ω}

/-- A group may be passed by. -/
theorem pass (h : Delivers b (index + 1) rest w ps e delivery) :
    Delivers b index (g :: rest) w ps e { delivery with groups := g :: delivery.groups } :=
  ⟨h.event, h.world, (Walk.refl b (addressSlots index 0 g.slots) w).append h.walk⟩

/-- The parcels of a group are written before those of the groups behind it. -/
theorem write {e' : Event} (hpasses : e'.level.passes g.threshold = true)
    (h : Delivers b (index + 1) rest (writeSlots b index (g.encode e') 0 g.slots w).world ps e
      delivery) (captures : Nat) :
    Delivers b index (g :: rest) w (g.parcels index e' ++ ps) e
      { delivery with
        groups := { g with slots := (writeSlots b index (g.encode e') 0 g.slots w).slots } ::
          delivery.groups
        captures
        diagnostics := (writeSlots b index (g.encode e') 0 g.slots w).diagnostics ++
          delivery.diagnostics } := by
  obtain ⟨hworld, hwalk⟩ := writeSlots_walk b index (g.encode e') 0 g.slots w
  have hparcels : g.parcels index e' =
      (addressSlots index 0 g.slots).map fun (a, slot) => ⟨a, slot.sink, g.encode e'⟩ :=
    if_pos hpasses
  rw [← hparcels] at hworld hwalk
  rw [← hworld] at hwalk
  refine ⟨h.event, ?_, ?_⟩
  · rw [SinkBackend.writeAll_append, ← hworld]
    exact h.world
  · rw [SinkBackend.writeAll_append, ← hworld]
    exact hwalk.append h.walk

end Delivers

/-- Delivering an event is writing its parcels. -/
theorem deliver_delivers (b : SinkBackend σ ω) (captured : Trace) (past groups : List (Group σ))
    (e : Event) (w : ω) :
    Delivers b past.length groups w (parcels captured past groups e)
      (e.behind captured (past ++ groups))
      (deliver b captured past.length groups (e.behind captured past) w) := by
  -- a group joins the past of those behind it, which get the frames it had captured
  induction groups generalizing past w with
  | nil =>
    rw [List.append_nil]
    exact ⟨rfl, rfl, .done w⟩
  | cons g rest ih =>
    have hlength : (past ++ [g]).length = past.length + 1 := by simp
    rw [parcels_cons, deliver, Event.level_behind, List.append_cons past g rest]
    split
    · next hreached =>
      have hpasses : e.level.passes g.threshold = true := (Bool.and_eq_true_iff.1 hreached).1
      have hrest := ih (past ++ [g])
      simp only [hlength, Event.behind_concat hreached] at hrest ⊢
      refine .write ?_ (hrest _) _
      rw [← Event.behind_concat hreached, Event.level_behind]
      exact hpasses
    · next hreached =>
      have hnot : g.isReached e.level = false := by simpa using hreached
      have hrest := ih (past ++ [g]) w
      rw [hlength, Event.behind_concat_of_not_reached hnot] at hrest
      rw [Event.behind_concat_of_not_reached hnot,
        (Group.parcels_eq_nil_iff _).2 (by simpa using hnot), List.nil_append]
      exact hrest.pass

end Logbook
