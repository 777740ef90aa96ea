import Logbook.Event.Pool

/-!
# Pools of cleared events

What waits in a pool was cleared when it was given back, and no more than the capacity
waits there: `Pool.Clean`. Every use of a pool keeps it so (`Pool.Clean.run`), and an
event that is taken from a clean pool is a new one (`Pool.Clean.acquire_fst`).
-/

namespace Logbook

namespace Event

/-- The event has no entries, its cursor is at the first frame, and no error is linked. -/
structure IsBlank (e : Event) : Prop where
  message : e.message = .empty
  error : e.error = none

theorem isBlank_clear (e : Event) : e.clear.IsBlank := ⟨rfl, rfl⟩

/-- With a level and a time a blank event is a new one. -/
theorem IsBlank.stamp_eq {e : Event} (h : e.IsBlank) (level : Level) (time : Calendar.Timestamp) :
    (e.withLevel level).withTime time = .new level time := by
  obtain ⟨oldLevel, oldTime, message, error⟩ := e
  obtain ⟨hmessage, herror⟩ := h
  change message = .empty at hmessage
  change error = none at herror
  rw [hmessage, herror]
  rfl

end Event

namespace Pool

/-- What is done with a pool. -/
inductive Step where
  | acquire (level : Level) (time : Calendar.Timestamp)
  | release (event : Event)

/-- The pool behind a step. -/
def apply (p : Pool) : Step → Pool
  | .acquire level time => (p.acquire level time).2
  | .release e => p.release e

/-- The pool behind a list of steps. -/
def run (p : Pool) (steps : List Step) : Pool := steps.foldl apply p

/-- A pool that keeps to its capacity, and whose idle events are blank. -/
structure Clean (capacity : Nat) (p : Pool) : Prop where
  capacity_eq : p.capacity = capacity
  length_le : p.idle.length ≤ capacity
  blank : ∀ e ∈ p.idle, e.IsBlank

theorem clean_new (capacity : Nat) : (new capacity).Clean (max capacity 1) :=
  ⟨rfl, Nat.zero_le _, fun _ h => absurd h List.not_mem_nil⟩

namespace Clean

variable {capacity : Nat} {p : Pool}

theorem acquire_fst (h : p.Clean capacity) (level : Level) (time : Calendar.Timestamp) :
    (p.acquire level time).1 = .new level time := by
  unfold Pool.acquire
  split
  · next e rest hidle =>
    have hmem : e ∈ p.idle := hidle ▸ List.mem_cons_self
    exact (h.blank e hmem).stamp_eq level time
  · rfl

theorem acquire_snd (h : p.Clean capacity) (level : Level) (time : Calendar.Timestamp) :
    (p.acquire level time).2.Clean capacity := by
  obtain ⟨hcapacity, hlength, hblank⟩ := h
  unfold Pool.acquire
  split
  · next e rest hidle =>
    rw [hidle] at hlength hblank
    exact ⟨hcapacity, Nat.le_of_succ_le hlength, (List.forall_mem_cons.1 hblank).2⟩
  · exact ⟨hcapacity, hlength, hblank⟩

/-- Whatever was in an event, it is cleared before it waits in the pool. -/
theorem release (h : p.Clean capacity) (e : Event) : (p.release e).Clean capacity := by
  unfold Pool.release
  split
  · next hroom =>
    refine ⟨h.capacity_eq, ?_, ?_⟩
    · rw [List.length_append, List.length_singleton, ← h.capacity_eq]
      exact hroom
    · intro other hother
      rcases List.mem_append.1 hother with hidle | hlast
      · exact h.blank other hidle
      · rw [List.mem_singleton.1 hlast]
        exact e.isBlank_clear
  · exact h

theorem run (h : p.Clean capacity) (steps : List Step) : (p.run steps).Clean capacity := by
  induction steps generalizing p with
  | nil => exact h
  | cons step rest ih =>
    cases step with
    | acquire level time => exact ih (h.acquire_snd level time)
    | release e => exact ih (h.release e)

end Clean

end Pool

end Logbook
