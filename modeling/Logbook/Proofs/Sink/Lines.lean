import Logbook.Proofs.Sink.Logged
import Logbook.Sink.Layer
import Logbook.Sink.Memory
import Mathlib.Data.List.DropRight

/-!
# Lines in memory

Layers around a sink act as one: if any of them makes lines, all together make lines, and
otherwise they do nothing (`layered_of_mem`, `layered_of_not_mem`). `Memory.run` is a
history of a buffer with layers around it. `Memory.run_lines` says that the buffer gets one
write for each event, that it holds the events since its contents were taken last, each of
them made a line, and that these lines are found again by cutting the contents behind each
line feed.
-/

namespace Logbook

open Ending (lineFeed)

/-- An event with a line feed behind it, unless it ends in one. -/
def asLine (event : List UInt8) : List UInt8 :=
  if event.getLast? = some lineFeed then event else event ++ [lineFeed]

/-- The pieces of octets, each of which but the last ends in the first separator that it
    holds. Nothing has no pieces. -/
def splitAfter (sep : UInt8) : List UInt8 → List (List UInt8)
  | [] => []
  | b :: bytes =>
    if b = sep then [b] :: splitAfter sep bytes
    else
      match splitAfter sep bytes with
      | [] => [[b]]
      | piece :: pieces => (b :: piece) :: pieces

namespace Ending

theorem terminate_newline (event : List UInt8) : newline.terminate event = asLine event := by
  unfold terminate asLine
  by_cases h : event.getLast? = some lineFeed <;> simp [h, endsLines]

theorem terminate_verbatim (event : List UInt8) : verbatim.terminate event = event := by
  simp [terminate, endsLines]

end Ending

theorem getLast?_asLine (event : List UInt8) : (asLine event).getLast? = some lineFeed := by
  unfold asLine
  split
  · next h => exact h
  · exact List.getLast?_concat

theorem asLine_asLine (event : List UInt8) : asLine (asLine event) = asLine event := by
  conv => lhs; rw [asLine]
  rw [if_pos (getLast?_asLine event)]

/-! ### Layers -/

namespace SinkBackend

variable {σ ω : Type} (b : SinkBackend σ ω) {layers : List SinkLayer}

theorem around_verbatim : b.around (.ending .verbatim) = b := by
  have hwrite : (b.around (.ending .verbatim)).write = b.write := by
    funext s event
    exact congrArg (b.write s) (Ending.terminate_verbatim event)
  exact congrArg (SinkBackend.mk · b.flush) hwrite

theorem around_pointer (pointer : Pointer) : b.around (.pointer pointer) = b := rfl

theorem around_newline_write (s : σ) (event : List UInt8) :
    (b.around (.ending .newline)).write s event = b.write s (asLine event) :=
  congrArg (b.write s) (Ending.terminate_newline event)

/-- What makes lines makes no further lines of lines. -/
theorem around_newline_newline :
    (b.around (.ending .newline)).around (.ending .newline) = b.around (.ending .newline) := by
  have hwrite : ((b.around (.ending .newline)).around (.ending .newline)).write =
      (b.around (.ending .newline)).write := by
    funext s event
    rw [around_newline_write, around_newline_write, around_newline_write, asLine_asLine]
  exact congrArg (SinkBackend.mk · b.flush) hwrite

theorem layered_cons (layer : SinkLayer) (layers : List SinkLayer) :
    b.layered (layer :: layers) = (b.layered layers).around layer := rfl

/-- Layers of which none makes lines do nothing. -/
theorem layered_of_not_mem (h : .ending .newline ∉ layers) : b.layered layers = b := by
  induction layers with
  | nil => rfl
  | cons layer layers ih =>
    rw [List.mem_cons, not_or] at h
    rw [layered_cons, ih h.2]
    match layer, h.1 with
    | .ending .newline, hne => exact absurd rfl hne
    | .ending .verbatim, _ => exact b.around_verbatim
    | .pointer pointer, _ => exact b.around_pointer pointer

/-- Layers of which one makes lines make lines. -/
theorem layered_of_mem (h : .ending .newline ∈ layers) :
    b.layered layers = b.around (.ending .newline) := by
  induction layers with
  | nil => exact absurd h List.not_mem_nil
  | cons layer layers ih =>
    rw [layered_cons]
    by_cases hinner : .ending .newline ∈ layers
    · rw [ih hinner]
      match layer with
      | .ending .newline => exact b.around_newline_newline
      | .ending .verbatim => exact around_verbatim _
      | .pointer pointer => exact around_pointer _ pointer
    · rw [b.layered_of_not_mem hinner, ← (List.mem_cons.1 h).resolve_right hinner]

/-- Layers matter through whether one of them makes lines. -/
theorem layered_congr {others : List SinkLayer}
    (h : .ending .newline ∈ others ↔ .ending .newline ∈ layers) :
    b.layered others = b.layered layers := by
  by_cases hmem : .ending .newline ∈ layers
  · rw [b.layered_of_mem hmem, b.layered_of_mem (h.2 hmem)]
  · rw [b.layered_of_not_mem hmem, b.layered_of_not_mem (mt h.1 hmem)]

end SinkBackend

/-! ### Histories -/

namespace Memory

/-- What may be done with a buffer: a write or a flush through the layers around it, and
    taking its contents. -/
inductive Step where
  | write (event : List UInt8)
  | flush
  | take
  deriving DecidableEq, Repr

def Step.event? : Step → Option (List UInt8)
  | write event => some event
  | _ => none

/-- The events of a history. -/
def events (steps : List Step) : List (List UInt8) := steps.filterMap Step.event?

/-- The events since the contents were taken last. -/
def heldEvents (steps : List Step) : List (List UInt8) :=
  events (steps.rtakeWhile fun step => step ≠ .take)

/-- A buffer, and the calls that it got. -/
abbrev Logged := Memory × List (SinkCall Unit)

/-- The buffer after a step, with the given layers around it. -/
def step (layers : List SinkLayer) (m : Logged) : Step → Logged
  | .write event => ((Memory.backend.logged.layered layers).write () event m).2
  | .flush => ((Memory.backend.logged.layered layers).flush () m).2
  | .take => (m.1.take.2, m.2)

/-- The buffer after a history. -/
def run (layers : List SinkLayer) (steps : List Step) : Logged :=
  steps.foldl (step layers) (.empty, [])

/-- What a buffer got in a history, and what it holds: one write for each event, made a
    line, none of which failed, and the lines of the events since its contents were taken
    last. -/
structure Framed (steps : List Step) (m : Logged) : Prop where
  written : m.2.filterMap SinkCall.written? = (events steps).map fun event => ((), asLine event)
  failure_eq_none : ∀ call ∈ m.2, call.failure = none
  writes : m.1.writes = (events steps).length
  contents : m.1.contents = ((heldEvents steps).map asLine).flatten

variable {layers : List SinkLayer} {steps : List Step} {m : Logged}

theorem run_concat (steps : List Step) (s : Step) :
    run layers (steps ++ [s]) = step layers (run layers steps) s :=
  List.foldl_concat _ _ _ _

theorem events_concat (steps : List Step) (s : Step) :
    events (steps ++ [s]) = events steps ++ s.event?.toList := by
  rw [events, List.filterMap_append]
  cases s <;> rfl

theorem heldEvents_concat_take (steps : List Step) : heldEvents (steps ++ [.take]) = [] := by
  rw [heldEvents, List.rtakeWhile_concat]
  rfl

theorem heldEvents_concat {s : Step} (h : s ≠ .take) (steps : List Step) :
    heldEvents (steps ++ [s]) = heldEvents steps ++ s.event?.toList := by
  rw [heldEvents, List.rtakeWhile_concat, if_pos (decide_eq_true h), events_concat]
  rfl

theorem step_write (h : .ending .newline ∈ layers) (m : Logged) (event : List UInt8) :
    step layers m (.write event) =
      (m.1.write (asLine event), m.2 ++ [⟨.write () (asLine event), none⟩]) := by
  rw [step, SinkBackend.layered_of_mem _ h, SinkBackend.around_newline_write]
  rfl

theorem step_flush (h : .ending .newline ∈ layers) (m : Logged) :
    step layers m .flush = (m.1, m.2 ++ [⟨.flush (), none⟩]) := by
  rw [step, SinkBackend.layered_of_mem _ h]
  rfl

/-- Each step keeps the frame. -/
theorem Framed.step (h : .ending .newline ∈ layers) (hm : Framed steps m) (s : Step) :
    Framed (steps ++ [s]) (Memory.step layers m s) := by
  have hfailure : ∀ request : SinkRequest Unit, ∀ call ∈ m.2 ++ [⟨request, none⟩],
      call.failure = none := by
    intro request call hcall
    rcases List.mem_append.1 hcall with hcall | hcall
    · exact hm.failure_eq_none call hcall
    · rw [List.mem_singleton.1 hcall]
  cases s with
  | write event =>
    rw [step_write h]
    refine ⟨?_, hfailure _, ?_, ?_⟩
    · rw [List.filterMap_append, hm.written, events_concat, List.map_append]
      rfl
    · rw [events_concat, List.length_append, ← hm.writes]
      rfl
    · have hne : Step.write event ≠ .take := nofun
      rw [heldEvents_concat hne, List.map_append, List.flatten_append, ← hm.contents]
      exact congrArg (m.1.contents ++ ·) (List.append_nil _).symm
  | flush =>
    rw [step_flush h]
    refine ⟨?_, hfailure _, ?_, ?_⟩
    · rw [List.filterMap_append, hm.written, events_concat, List.map_append]
      rfl
    · rw [events_concat, List.length_append, ← hm.writes]
      rfl
    · rw [heldEvents_concat (by decide), List.map_append, List.flatten_append, ← hm.contents]
      exact (List.append_nil _).symm
  | take =>
    refine ⟨?_, hm.failure_eq_none, ?_, ?_⟩
    · rw [events_concat, List.map_append, ← hm.written]
      exact (List.append_nil _).symm
    · rw [events_concat, List.length_append, ← hm.writes]
      rfl
    · rw [heldEvents_concat_take]
      rfl

theorem framed_run (h : .ending .newline ∈ layers) (steps : List Step) :
    Framed steps (run layers steps) := by
  induction steps using List.reverseRecOn with
  | nil => exact ⟨rfl, nofun, rfl, rfl⟩
  | append_singleton steps s ih =>
    rw [run_concat]
    exact ih.step h s

end Memory

/-! ### Lines found again -/

theorem splitAfter_append {sep : UInt8} {front : List UInt8} (h : sep ∉ front)
    (rest : List UInt8) :
    splitAfter sep (front ++ sep :: rest) = (front ++ [sep]) :: splitAfter sep rest := by
  induction front with
  | nil => exact if_pos rfl
  | cons b front ih =>
    rw [List.mem_cons, not_or] at h
    rw [List.cons_append, splitAfter, if_neg (Ne.symm h.1), ih h.2]
    rfl

/-- An event that holds a line feed at its end at most is one line. -/
theorem exists_asLine_eq {event : List UInt8} (h : lineFeed ∉ event.dropLast) :
    ∃ front, lineFeed ∉ front ∧ asLine event = front ++ [lineFeed] := by
  unfold asLine
  by_cases hlast : event.getLast? = some lineFeed
  · rw [if_pos hlast]
    exact ⟨event.dropLast, h, (List.dropLast_append_getLast? _ hlast).symm⟩
  · rw [if_neg hlast]
    refine ⟨event, fun hmem => ?_, rfl⟩
    obtain ⟨front, last, rfl⟩ := (List.eq_nil_or_concat' event).resolve_left
      (List.ne_nil_of_mem hmem)
    rw [List.dropLast_concat] at h
    rw [List.getLast?_concat] at hlast
    rcases List.mem_append.1 hmem with hmem | hmem
    · exact h hmem
    · exact hlast (congrArg some (List.mem_singleton.1 hmem).symm)

/-- Lines in a row are found again behind each line feed. -/
theorem splitAfter_lines {held : List (List UInt8)} (h : ∀ event ∈ held, lineFeed ∉ event.dropLast) :
    splitAfter lineFeed (held.map asLine).flatten = held.map asLine := by
  induction held with
  | nil => rfl
  | cons event held ih =>
    rw [List.forall_mem_cons] at h
    obtain ⟨front, hfront, hline⟩ := exists_asLine_eq h.1
    rw [List.map_cons, List.flatten_cons, hline, List.append_assoc, List.singleton_append,
      splitAfter_append hfront, ih h.2]

theorem getLast?_lines {held : List (List UInt8)} (h : held ≠ []) :
    (held.map asLine).flatten.getLast? = some lineFeed := by
  obtain ⟨front, last, rfl⟩ := (List.eq_nil_or_concat' held).resolve_left h
  rw [List.map_append, List.flatten_append, List.map_singleton, List.flatten_singleton,
    List.getLast?_append, getLast?_asLine]
  rfl

namespace Memory

/-- A buffer behind layers of which one makes lines gets one write for each event, holds the
    lines of the events since its contents were taken last, and is empty or ends in a line
    feed; the lines are found again behind each line feed unless an event holds one
    before its end. Further layers that make lines change nothing, nor does a pointer
    between any two layers, and layers of which none makes lines leave the sinks of every
    kind as they are. -/
theorem run_lines (layers : List SinkLayer) :
    (.ending .newline ∈ layers → ∀ steps : List Step,
      Framed steps (run layers steps) ∧
      ((run layers steps).1.contents = [] ∨
        (run layers steps).1.contents.getLast? = some lineFeed) ∧
      ((∀ event ∈ heldEvents steps, lineFeed ∉ event.dropLast) →
        splitAfter lineFeed (run layers steps).1.contents = (heldEvents steps).map asLine)) ∧
    ∀ {σ ω : Type} (b : SinkBackend σ ω),
      (.ending .newline ∈ layers → ∀ n,
        b.layered (List.replicate n (.ending .newline) ++ layers) = b.layered layers) ∧
      (∀ pointer front back, layers = front ++ back →
        b.layered (front ++ .pointer pointer :: back) = b.layered layers) ∧
      (.ending .newline ∉ layers → b.layered layers = b) := by
  refine ⟨fun h steps => ?_, fun b => ⟨fun h n => ?_, ?_, b.layered_of_not_mem⟩⟩
  · have hframed := framed_run h steps
    refine ⟨hframed, ?_, fun hheld => ?_⟩
    · rw [hframed.contents]
      by_cases hnil : heldEvents steps = []
      · exact .inl (by rw [hnil]; rfl)
      · exact .inr (getLast?_lines hnil)
    · rw [hframed.contents, splitAfter_lines hheld]
  · exact b.layered_congr (iff_of_true (List.mem_append_right _ h) h)
  · rintro pointer front back rfl
    exact b.layered_congr (by simp)

/-- Pointers, lines and no lines around a buffer. An event that ends in a line feed, an empty
    one, and after the contents are taken one that is no text and one that is a line feed
    alone. -/
theorem run_lines_boxed :
    let layers : List SinkLayer := [.pointer .owned, .ending .newline, .pointer .shared,
      .ending .verbatim, .ending .newline]
    let steps : List Step := [.write [100, 10], .write [], .flush, .take, .write [255], .flush,
      .write [10]]
    .ending .newline ∈ layers ∧
    (run layers steps).1.contents = [255, 10, 10] ∧ (run layers steps).1.writes = 4 ∧
    splitAfter lineFeed (run layers steps).1.contents = [[255, 10], [10]] ∧
    backend.layered (.ending .newline :: .ending .newline :: layers) = backend.layered layers ∧
    backend.layered [.pointer .borrowed, .ending .verbatim] = backend := by
  intro layers steps
  have hmem : SinkLayer.ending .newline ∈ layers := by decide
  obtain ⟨hlines, hlayered⟩ := run_lines layers
  obtain ⟨hframed, -, hsplit⟩ := hlines hmem steps
  have hverbatim := (run_lines [.ending .verbatim]).2 backend
  refine ⟨hmem, hframed.contents, hframed.writes, hsplit (by decide),
    (hlayered backend).1 hmem 2, ?_⟩
  exact (hverbatim.2.1 .borrowed [] [.ending .verbatim] rfl).trans (hverbatim.2.2 (by decide))

end Memory

end Logbook
