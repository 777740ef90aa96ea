import Logbook.Proofs.Error.Layers
import Logbook.Proofs.Structured.Members

/-!
# The text of the linked error

A structured log line tells the messages of the linked error as one text, the
outermost first, without the empty ones; the body of the event stands for an empty
outermost one. `errorText?_eq` says so of the record of any error. An error has a
text of its own, made apart from the line; `join_chainTexts` says how the two differ,
which they do only where the outermost message is empty, and `members_error` what
the line of an event tells.
-/

namespace Logbook

theorem Text.filter_not_isEmpty (texts : List String) :
    texts.filter (fun t => !t.isEmpty) = texts.filter fun t => t ≠ "" := by
  refine List.filter_congr ?_
  intro t _
  by_cases h : t = "" <;> simp [h]

/-- The texts that are shown of an error whose messages have the given texts: an outer
    text stands for the last one, if that is empty, and empty texts are left out. -/
def chainTexts (outer : String) (bodies : List String) : List String :=
  (if bodies.getLast? = some "" then bodies.dropLast ++ [outer] else bodies).filter
    fun body => body ≠ ""

/-- An outer text is shown as the last one, unless it is empty itself. -/
theorem chainTexts_concat_empty (outer : String) (front : List String) :
    chainTexts outer (front ++ [""]) =
      front.filter (fun body => body ≠ "") ++ if outer = "" then [] else [outer] := by
  rw [chainTexts, List.getLast?_concat, if_pos rfl, List.dropLast_concat, List.filter_append]
  by_cases h : outer = "" <;> simp [h]

namespace Record

/-- Only an empty last text makes room for a body. -/
theorem map_body_withLastBody (r : Record) (body : String) :
    (r.withLastBody body).messages.map Message.body =
      if (r.messages.map Message.body).getLast? = some "" then
        (r.messages.map Message.body).dropLast ++ [body]
      else r.messages.map Message.body := by
  unfold withLastBody
  rw [List.getLast?_map]
  cases hlast : r.messages.getLast? with
  | none => simp
  | some last =>
    by_cases hempty : last.body = ""
    · simp [hempty, List.map_dropLast]
    · simp [hempty]

/-- Of the messages at every frame, those are shown whose texts are. -/
theorem textsOutward_zero (r : Record) (body : String) :
    (r.withLastBody body).textsOutward 0 = chainTexts body (r.messages.map Message.body) := by
  have hall : (r.withLastBody body).messages.filter (fun m => 0 ≤ m.frame) =
      (r.withLastBody body).messages := List.filter_eq_self.2 fun m _ => by simp
  rw [textsOutward, hall, shownTexts, map_body_withLastBody, chainTexts, Text.filter_not_isEmpty]

end Record

namespace Structured

variable {s : Structured} {e : Event}

/-- The text of the linked error is that of its shown texts, the outermost first. -/
theorem errorText?_eq {r : Record} (h : e.error = some r) :
    errorText? e =
      let shown := chainTexts e.message.body (r.messages.map Message.body)
      if shown = [] then none else some (Text.join ": " shown.reverse) := by
  simp only [errorText?, Event.linked?, h, Option.map_some, Option.getD_some,
    Record.textsOutward_zero]
  split
  · next hnil => rw [if_pos hnil]
  · next hne => rw [if_neg hne]

end Structured

namespace RecordedError

variable {e : RecordedError} {last : Message}

/-- The texts of the messages of an error that are not empty, the innermost first. -/
def shownBodies (e : RecordedError) : List String :=
  (e.record.messages.map Message.body).filter fun body => body ≠ ""

theorem ne_empty_of_mem_shownBodies : ∀ body ∈ e.shownBodies, body ≠ "" :=
  fun _ h => of_decide_eq_true (List.mem_filter.1 h).2

theorem text_eq (e : RecordedError) : e.text = Text.join ": " e.shownBodies.reverse := by
  rw [text, List.map_reverse, List.filter_reverse, Text.filter_not_isEmpty, shownBodies]

theorem text_eq_empty_iff : e.text = "" ↔ e.shownBodies = [] := by
  rw [text_eq, Text.join_eq_empty_iff, List.reverse_eq_nil_iff]
  exact fun body h => ne_empty_of_mem_shownBodies body (List.mem_reverse.1 h)

/-- The outermost message of an error is its last one. -/
theorem exists_lastMessage? (id : Nat) (message : String) (captured : Trace)
    (steps : List Step) :
    ∃ last, ((make id message captured).run steps).record.lastMessage? = some last := by
  rw [record_run (record_make id message captured) steps]
  exact ⟨_, List.getLast?_eq_some_getLast (by simp [Record.layered, layerMessages])⟩

theorem map_body_eq (h : e.record.lastMessage? = some last) :
    ∃ front, e.record.messages.map Message.body = front ++ [last.body] := by
  obtain ⟨front, hfront⟩ := List.getLast?_eq_some_iff.1 h
  exact ⟨front.map Message.body, by rw [hfront, List.map_append, List.map_singleton]⟩

/-- Where the outermost message is not empty, no outer text is shown. -/
theorem chainTexts_of_ne (h : e.record.lastMessage? = some last) (hlast : last.body ≠ "")
    (outer : String) :
    chainTexts outer (e.record.messages.map Message.body) = e.shownBodies ∧
      e.shownBodies ≠ [] := by
  obtain ⟨front, hbodies⟩ := map_body_eq h
  constructor
  · rw [chainTexts, hbodies, List.getLast?_concat, if_neg (by simpa using hlast), shownBodies,
      hbodies]
  · refine List.ne_nil_of_mem (a := last.body) ?_
    rw [shownBodies, hbodies]
    simp [hlast]

/-- Where the outermost message is empty, the outer text is shown as well. -/
theorem chainTexts_of_eq (h : e.record.lastMessage? = some last) (hlast : last.body = "")
    (outer : String) :
    chainTexts outer (e.record.messages.map Message.body) =
      e.shownBodies ++ if outer = "" then [] else [outer] := by
  obtain ⟨front, hbodies⟩ := map_body_eq h
  rw [hlast] at hbodies
  rw [shownBodies, hbodies, chainTexts_concat_empty]
  simp

/-- What is shown of an error for an outer text: the text of the error itself where its
    outermost message is not empty, and otherwise with the outer text before it. -/
theorem join_chainTexts (h : e.record.lastMessage? = some last) (outer : String) :
    let shown := chainTexts outer (e.record.messages.map Message.body)
    (if shown = [] then none else some (Text.join ": " shown.reverse)) =
      if last.body ≠ "" then some e.text
      else if outer = "" ∧ e.text = "" then none
      else some (outer ++ (if outer = "" ∨ e.text = "" then "" else ": ") ++ e.text) := by
  intro shown
  by_cases hlast : last.body = ""
  · have hshown : shown = e.shownBodies ++ if outer = "" then [] else [outer] :=
      chainTexts_of_eq h hlast outer
    rw [if_neg (not_not_intro hlast)]
    by_cases houter : outer = ""
    · rw [hshown, if_pos houter, List.append_nil, ← text_eq]
      simp [houter, text_eq_empty_iff]
    · have hjoin := Text.join_cons_of_forall_ne ": " outer
        fun body hbody => ne_empty_of_mem_shownBodies (e := e) body (List.mem_reverse.1 hbody)
      rw [hshown, if_neg houter, if_neg (by simp), if_neg fun h => houter h.1,
        List.reverse_concat, hjoin, ← text_eq]
      simp [houter]
  · obtain ⟨hshown, hne⟩ : shown = e.shownBodies ∧ e.shownBodies ≠ [] :=
      chainTexts_of_ne h hlast outer
    rw [hshown, if_neg hne, if_pos hlast, text_eq]

end RecordedError

namespace Structured

/-- The text of the linked error in the line of an event: the texts of its messages, the
    outermost first, where the body of the event stands for an empty last one and empty
    texts are left out. There is none where no text is left, or no error. Of a recorded
    error, linked or attached, it is the text of the error itself, or, if its outermost
    message is empty, that text behind the body of the event; the event keeps the empty
    message. -/
theorem members_error (s : Structured) (e : Event) :
    ((s.members e).lookup "error" = e.error.bind fun r =>
      let shown := chainTexts e.message.body (r.messages.map Message.body)
      if shown = [] then none else some (.text (Text.join ": " shown.reverse))) ∧
    ∀ (id : Nat) (message : String) (captured : Trace) (steps : List RecordedError.Step),
      let error := (RecordedError.make id message captured).run steps
      let linked := e.link error.record
      e.attach Chain.recordInto ⟨[], some error⟩ = linked ∧
      ∃ last, error.record.lastMessage? = some last ∧
        linked.error.bind Record.lastMessage? = some last ∧
        (s.members linked).lookup "error" =
          if last.body ≠ "" then some (.text error.text)
          else if e.message.body = "" ∧ error.text = "" then none
          else some (.text
            (e.message.body ++ (if e.message.body = "" ∨ error.text = "" then "" else ": ") ++
              error.text)) := by
  constructor
  · rw [lookup_error]
    cases herror : e.error with
    | none => simp [errorText?, Event.linked?, herror]
    | some r =>
      rw [errorText?_eq herror]
      simp only [Option.bind_some]
      split <;> rfl
  · intro id message captured steps error linked
    obtain ⟨last, hlast⟩ : ∃ last, error.record.lastMessage? = some last :=
      RecordedError.exists_lastMessage? id message captured steps
    refine ⟨rfl, last, hlast, hlast, ?_⟩
    have herror : linked.error = some error.record := rfl
    rw [lookup_error, errorText?_eq herror, RecordedError.join_chainTexts hlast]
    simp only [apply_ite (Option.map Json.text), Option.map_some, Option.map_none]
    rfl

end Structured

end Logbook
