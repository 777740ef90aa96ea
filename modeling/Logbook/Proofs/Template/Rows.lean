import Mathlib.Data.List.Defs
import Logbook.Proofs.Field.Written
import Logbook.Record.Step
import Logbook.Template.Encoder

/-!
# Fields in rows

Fields are written one by one, and what stands before a field is told by its position
alone. `Rows` says how a list is cut into rows of a fixed length, and `rows_toChunks`
that `List.toChunks` cuts so. `FieldStyle.inRows` is the text of fields row by row, of
which every part is spelled out, and so are the styles of the verbs, `VerbStyle.ownRows`
and `VerbStyle.rowsBeneath`. `FieldStyle.render_eq_inRows` shows that the text of some
fields is that of their rows, and `Program.renderInstruction_inRows` what this means for
the fields of an event and for the fields beneath the frames of a stack trace.
-/

namespace Logbook

section Rows

variable {α : Type}

/-- The items in rows: each holds the given number of items, and the last one no more
    than that, but at least one. Zero is no limit, so that there is one row. -/
inductive Rows (perLine : Nat) : List α → List (List α) → Prop
  | nil : Rows perLine [] []
  | last {row : List α} : row ≠ [] → (0 < perLine → row.length ≤ perLine) →
      Rows perLine row [row]
  | cons {row rest : List α} {rows : List (List α)} : row ≠ [] → row.length = perLine →
      rest ≠ [] → Rows perLine rest rows → Rows perLine (row ++ rest) (row :: rows)

theorem Rows.ne_nil {perLine : Nat} {items : List α} {rows : List (List α)}
    (h : Rows perLine items rows) (hitems : items ≠ []) : rows ≠ [] := by
  cases h with
  | nil => exact absurd rfl hitems
  | last _ _ => exact List.cons_ne_nil _ _
  | cons _ _ _ _ => exact List.cons_ne_nil _ _

/-- With a row begun and others done, what is left is put into rows. -/
theorem rows_toChunks_go (perLine : Nat) (items : List α) (row : Array α)
    (rows : Array (List α)) (hbegun : 0 < row.size) (hroom : row.size ≤ perLine) :
    ∃ behind, List.toChunks.go perLine items row rows = rows.toList ++ behind ∧
      Rows perLine (row.toList ++ items) behind := by
  have hrow : row.toList ≠ [] := by
    rw [← List.length_pos_iff, Array.length_toList]
    exact hbegun
  induction items generalizing row rows with
  | nil =>
    refine ⟨[row.toList], by simp [List.toChunks.go], ?_⟩
    rw [List.append_nil]
    exact .last hrow fun _ => by rwa [Array.length_toList]
  | cons x items ih =>
    rw [List.toChunks.go]
    split
    · next hfull =>
      have hsize : row.size = perLine := eq_of_beq hfull
      obtain ⟨behind, hgo, hrows⟩ := ih #[x] (rows.push row.toList) (by simp) (by simp; omega)
        (by simp)
      refine ⟨row.toList :: behind, ?_, ?_⟩
      · rw [Array.toList_push, List.append_assoc] at hgo
        exact hgo
      · exact .cons hrow (by rwa [Array.length_toList]) (List.cons_ne_nil x items) hrows
    · next hshort =>
      have hsize : row.size ≠ perLine := fun h => hshort (beq_iff_eq.2 h)
      obtain ⟨behind, hgo, hrows⟩ := ih (row.push x) rows (by simp) (by simp; omega) (by simp)
      refine ⟨behind, hgo, ?_⟩
      rw [Array.toList_push, List.append_assoc] at hrows
      exact hrows

theorem rows_toChunks (perLine : Nat) (items : List α) :
    Rows perLine items (items.toChunks perLine) := by
  cases items with
  | nil => exact .nil
  | cons x items =>
    cases perLine with
    | zero => exact .last (List.cons_ne_nil x items) fun h => absurd h (Nat.lt_irrefl 0)
    | succ n =>
      obtain ⟨behind, hgo, hrows⟩ := rows_toChunks_go (n + 1) items #[x] #[] (by simp) (by simp)
      rw [List.toChunks, hgo]
      · exact hrows
      · exact Nat.succ_ne_zero n

end Rows

namespace FieldStyle

variable (style : FieldStyle)

/-- The text between two rows: the separator without the blanks at its end, and a line
    break. -/
def rowBreak : String := String.ofList (Text.trimEnd style.separator.toList) ++ style.lineBreak

/-- The text of a field: its key or its place between two texts, and its value. -/
def writtenItem (f : Field) (position : Nat) : String :=
  style.beforeKey ++ f.writtenKey position ++ style.afterKey ++ f.writtenValue

/-- What stands before a field: nothing before the first one, the text between two rows where
    a row is full, and elsewhere the separator. -/
def writtenGap (position : Nat) : String :=
  if position = 0 then ""
  else if 0 < style.perLine ∧ style.perLine ∣ position then style.rowBreak
  else style.separator

theorem item_eq (f : Field) (position : Nat) :
    style.item f position = style.writtenItem f position := by
  rw [item, writtenItem, f.label_eq, f.shownValue_eq]

theorem gapBefore_eq (position : Nat) : style.gapBefore position = style.writtenGap position := by
  simp only [gapBefore, writtenGap, Nat.dvd_iff_mod_eq_zero, rowBreak]

/-- The texts of fields that stand together. -/
def items (fields : List Field) : List String :=
  fields.zipIdx.map fun (f, position) => style.writtenItem f position

/-- The text of fields in rows, with the separator between two fields of a row. -/
def inRows (fields : List Field) : String :=
  Text.join style.rowBreak
    (((style.items fields).toChunks style.perLine).map (Text.join style.separator))

/-- Texts, of which the first has the given position, each behind what stands before its
    position. -/
def spaced : Nat → List String → String
  | _, [] => ""
  | position, text :: rest => style.writtenGap position ++ text ++ spaced (position + 1) rest

theorem spaced_append (position : Nat) (front back : List String) :
    style.spaced position (front ++ back) =
      style.spaced position front ++ style.spaced (position + front.length) back := by
  induction front generalizing position with
  | nil => simp [spaced]
  | cons text front ih =>
    have hposition : position + (front.length + 1) = position + 1 + front.length := by omega
    simp only [List.cons_append, spaced, List.length_cons, hposition, ih, String.append_assoc]

theorem render_eq_spaced (fields : List Field) :
    style.render fields = style.spaced 0 (style.items fields) := by
  have hfrom : ∀ start, Text.concat ((fields.zipIdx start).map fun item =>
        style.writtenGap item.2 ++ style.writtenItem item.1 item.2) =
      style.spaced start
        ((fields.zipIdx start).map fun item => style.writtenItem item.1 item.2) := by
    induction fields with
    | nil => exact fun _ => rfl
    | cons f fields ih =>
      intro start
      simp only [List.zipIdx_cons, List.map_cons, Text.concat_cons, spaced, ih (start + 1)]
  simp only [render, gapBefore_eq, item_eq]
  exact hfrom 0

theorem writtenGap_of_dvd {position : Nat} (hbehind : 0 < position) (hlimit : 0 < style.perLine)
    (h : style.perLine ∣ position) : style.writtenGap position = style.rowBreak := by
  rw [writtenGap, if_neg (Nat.ne_of_gt hbehind), if_pos ⟨hlimit, h⟩]

theorem writtenGap_of_not_dvd {position : Nat} (hbehind : 0 < position)
    (h : 0 < style.perLine → ¬ style.perLine ∣ position) :
    style.writtenGap position = style.separator := by
  rw [writtenGap, if_neg (Nat.ne_of_gt hbehind), if_neg fun hdvd => h hdvd.1 hdvd.2]

/-- Inside of a row separators stand between the texts. -/
theorem spaced_row (start : Nat) {row : List String} (hrow : row ≠ [])
    (hinside : ∀ position, start < position → position < start + row.length →
      style.writtenGap position = style.separator) :
    style.spaced start row = style.writtenGap start ++ Text.join style.separator row := by
  induction row generalizing start with
  | nil => exact absurd rfl hrow
  | cons text rest ih =>
    cases rest with
    | nil => simp [spaced]
    | cons next rest =>
      have hnext : style.writtenGap (start + 1) = style.separator :=
        hinside (start + 1) (by omega) (by simp)
      have hrest := ih (start + 1) (List.cons_ne_nil next rest) fun position hlow hhigh =>
        hinside position (by omega) (by simp only [List.length_cons] at hhigh ⊢; omega)
      rw [spaced, hrest, hnext, Text.join_cons_cons]
      simp only [String.append_assoc]

/-- The positions of a row behind its first one are not divided by the length of a row. -/
theorem not_dvd_of_inside {perLine start position : Nat} (hstart : perLine ∣ start)
    (hlow : start < position) (hhigh : position < start + perLine) : ¬ perLine ∣ position := by
  intro h
  have hle := Nat.le_of_dvd (Nat.sub_pos_of_lt hlow) (Nat.dvd_sub h hstart)
  omega

/-- Behind whole rows, the texts are written row by row. -/
theorem spaced_rows {start : Nat} {texts : List String} {rows : List (List String)}
    (h : Rows style.perLine texts rows) (htexts : texts ≠ []) (hstart : style.perLine ∣ start) :
    style.spaced start texts = style.writtenGap start ++
      Text.join style.rowBreak (rows.map (Text.join style.separator)) := by
  induction h generalizing start with
  | nil => exact absurd rfl htexts
  | last hrow hlength =>
    rw [List.map_singleton, Text.join_singleton]
    refine style.spaced_row start hrow fun position hlow hhigh => ?_
    refine style.writtenGap_of_not_dvd (Nat.zero_lt_of_lt hlow) fun hlimit => ?_
    exact not_dvd_of_inside hstart hlow
      (Nat.lt_of_lt_of_le hhigh (Nat.add_le_add_left (hlength hlimit) start))
  | @cons row rest rows hrow hlength hrest hrows ih =>
    have hlimit : 0 < style.perLine := hlength ▸ List.length_pos_iff.2 hrow
    have hnext : style.perLine ∣ start + row.length :=
      Nat.dvd_add hstart (hlength ▸ Nat.dvd_refl _)
    have hfirst : style.spaced start row =
        style.writtenGap start ++ Text.join style.separator row := by
      refine style.spaced_row start hrow fun position hlow hhigh => ?_
      refine style.writtenGap_of_not_dvd (Nat.zero_lt_of_lt hlow) fun _ => ?_
      exact not_dvd_of_inside hstart hlow (hlength ▸ hhigh)
    have hbreak : style.writtenGap (start + row.length) = style.rowBreak :=
      style.writtenGap_of_dvd (by omega) hlimit hnext
    obtain ⟨second, others, rfl⟩ := List.exists_cons_of_ne_nil (hrows.ne_nil hrest)
    rw [spaced_append, hfirst, ih hrest hnext, hbreak]
    simp only [List.map_cons, Text.join_cons_cons, String.append_assoc]

/-- The text of fields that are written one by one is that of their rows. -/
theorem render_eq_inRows (fields : List Field) : style.render fields = style.inRows fields := by
  by_cases hitems : style.items fields = []
  · rw [render_eq_spaced, inRows, hitems]
    rfl
  · rw [render_eq_spaced, style.spaced_rows (rows_toChunks _ _) hitems (Nat.dvd_zero _),
      inRows]
    exact String.empty_append

end FieldStyle

/-- The rows that a fields verb has for the fields of an event as a whole. -/
def VerbStyle.ownRows (fields : VerbStyle) : FieldStyle :=
  ⟨fields.beforeKey, fields.afterKey, fields.afterValue, fields.lineBreak.getD "\n",
    fields.perLine⟩

/-- The rows beneath the frames of a stack trace: those of the fields verb with its line break
    of errors, or else pairs with an equals sign, in one row. -/
def VerbStyle.rowsBeneath (trace : VerbStyle) : Option VerbStyle → FieldStyle
  | some fields =>
    ⟨fields.beforeKey, fields.afterKey, fields.afterValue,
      fields.errorLineBreak.getD "\n\t", fields.perLine⟩
  | none =>
    ⟨trace.beforeKey, if trace.afterKey = "" then "=" else trace.afterKey, " ",
      trace.errorLineBreak.getD "\n\t", 0⟩

theorem FieldStyle.ofFields_eq (fields : VerbStyle) :
    FieldStyle.ofFields fields = fields.ownRows := rfl

theorem FieldStyle.beneathFrames_eq (trace : VerbStyle) (fields : Option VerbStyle) :
    FieldStyle.beneathFrames trace fields = trace.rowsBeneath fields := by
  cases fields with
  | some fields => rfl
  | none =>
    rw [beneathFrames, VerbStyle.rowsBeneath]
    simp only [String.isEmpty_iff]
    rfl

namespace Program

variable (p : Program) (trace : VerbStyle)

/-- The styles of the fields verbs of a program. -/
def fieldsVerbs : List VerbStyle :=
  p.instructions.flatMap fun
    | .fields style => [style]
    | _ => []

/-- The rows beneath the frames of a stack trace follow the first fields verb. -/
def frameRows : FieldStyle := trace.rowsBeneath p.fieldsVerbs.head?

theorem fieldsStyle?_eq : p.fieldsStyle? = p.fieldsVerbs.head? := by
  rw [fieldsStyle?, fieldsVerbs]
  induction p.instructions with
  | nil => rfl
  | cons i instructions ih =>
    rw [List.findSome?_cons, List.flatMap_cons]
    cases i with
    | fields style => rfl
    | _ => exact ih

theorem fields_traceStyle : (p.traceStyle trace).fields = p.frameRows trace := by
  rw [traceStyle, frameRows, FieldStyle.beneathFrames_eq, fieldsStyle?_eq]

end Program

/-- The text of a block is that of the block without its fields, and behind it the fields
    in rows, on a line of their own if anything stands before them. -/
theorem TraceStyle.renderBlock_inRows (style : TraceStyle) (begun : Bool) (b : TraceBlock) :
    style.renderBlock begun b = style.renderBlock begun { b with fields := [] } ++
      if b.fields = [] then ""
      else (if begun || b.frame.isSome || !b.texts.isEmpty then style.fields.lineBreak else "") ++
        style.fields.inRows b.fields := by
  by_cases hfields : b.fields = []
  · simp [renderBlock, FieldStyle.renderBeneath, hfields]
  · have hfull : b.fields.isEmpty = false := List.isEmpty_eq_false_iff.2 hfields
    simp [renderBlock, FieldStyle.renderBeneath, hfields, FieldStyle.render_eq_inRows]

/-- The fields in the blocks of an event are rendered. -/
theorem Event.isShown_of_mem_traceBlocks {e : Event} {keepZeros : Bool} {b : TraceBlock}
    (hb : b ∈ e.traceBlocks keepZeros) {f : Field} (hf : f ∈ b.fields) :
    f.isShown keepZeros = true := by
  have hframe : ∀ frame index, f ∈ (TraceBlock.atFrame keepZeros e.linked? frame index).fields →
      f.isShown keepZeros = true := by
    intro frame index h
    unfold TraceBlock.atFrame at h
    split at h
    · exact (List.mem_filter.1 h).2
    · exact absurd h List.not_mem_nil
  have hbeyond : ∀ frame index, f ∈ (TraceBlock.outward keepZeros e.linked? frame index).fields →
      f.isShown keepZeros = true := by
    intro frame index h
    unfold TraceBlock.outward at h
    split at h
    · exact (List.mem_filter.1 h).2
    · exact absurd h List.not_mem_nil
  rcases List.mem_append.1 hb with hb | hb
  · obtain ⟨place, -, rfl⟩ := List.mem_map.1 hb
    exact hframe place.1 place.2 hf
  · split at hb
    · exact absurd hb List.not_mem_nil
    · rw [List.mem_singleton.1 hb] at hf
      exact hbeyond none _ hf

/-- The fields of an event as a whole that are rendered stand in rows between the texts
    around the verb, and nothing is written if there are none. A stack trace is written
    block by block between the texts around it. The rendered fields in a block stand in rows
    of the style that the program has for them, behind a line break exactly if there are any
    and something stands before them: a block, the frame, or a message. -/
theorem Program.renderInstruction_inRows (p : Program) (settings : RenderSettings) (e : Event)
    (fields trace : VerbStyle) :
    let shown := (e.message.systemFields ++ (e.error.map Record.systemFields).getD [] ++
      e.message.fields).filter (·.isShown settings.keepZeros)
    let blocks := e.traceBlocks settings.keepZeros
    let block := (p.traceStyle trace).renderBlock
    p.renderInstruction settings e (.fields fields) =
      (if shown = [] then "" else fields.before ++ fields.ownRows.inRows shown ++ fields.after) ∧
    (blocks = [] → p.renderInstruction settings e (.trace trace) = "") ∧
    (∀ first rest, blocks = first :: rest →
      p.renderInstruction settings e (.trace trace) =
        trace.before ++ block false first ++ Text.concat (rest.map (block true)) ++ trace.after) ∧
    (∀ b ∈ blocks, ∀ f ∈ b.fields, f.isShown settings.keepZeros = true) ∧
    ∀ (begun : Bool) (b : TraceBlock),
      let style := p.frameRows trace
      block begun b = block begun { b with fields := [] } ++
        if b.fields = [] then ""
        else (if begun || b.frame.isSome || !b.texts.isEmpty then style.lineBreak else "") ++
          style.inRows b.fields := by
  intro shown blocks block
  have htrace : p.renderInstruction settings e (.trace trace) =
      (p.traceStyle trace).render blocks := rfl
  refine ⟨?_, ?_, ?_, fun b hb f hf => Event.isShown_of_mem_traceBlocks hb hf, ?_⟩
  · rw [renderInstruction, VerbStyle.fieldsText, FieldStyle.ofFields_eq,
      FieldStyle.render_eq_inRows]
    simp only [List.isEmpty_iff]
    rfl
  · intro hnil
    rw [htrace, hnil, TraceStyle.render]
  · intro first rest hcons
    rw [htrace, hcons, TraceStyle.render]
    rfl
  · intro begun b style
    have hstyle : style = (p.traceStyle trace).fields := (p.fields_traceStyle trace).symm
    rw [hstyle]
    exact TraceStyle.renderBlock_inRows (p.traceStyle trace) begun b

/-- Three fields, of which one has no name, are two in the first row, where the separator
    loses its blank. Beneath a frame the line break is that of errors, and without a fields
    verb all of them stand in one row. -/
theorem Program.renderInstruction_inRows_wrapped :
    let fields : VerbStyle := ⟨"[", "]", "<", ":", "; ", some "|", some "\n- ", 2, false⟩
    let listed : List Field :=
      [⟨"size", .nat8 3, 0, false, false⟩, ⟨"lost", .invalid, 0, false, false⟩,
        ⟨"", .bool true, 0, false, false⟩, ⟨"path", .text "/var", 0, false, false⟩]
    let e : Event :=
      ⟨.error, default, .ofSteps (.withTrace [⟨"app::main", "main.rs", 9⟩] ::
        listed.map .addField), some (.ofSteps (listed.map .addField))⟩
    let own : Program := ⟨[.fields fields, .trace .plain], .standard⟩
    let other : Program := ⟨[.trace .plain], .standard⟩
    own.renderInstruction ⟨.standard, false⟩ e (.fields fields) =
      "[<size:3; <_1:true;|<path:/var]" ∧
    own.renderInstruction ⟨.standard, false⟩ e (.trace .plain) =
      "app::main (main.rs:9)\n- <size:3; <_1:true;\n- <path:/var" ∧
    other.renderInstruction ⟨.standard, false⟩ e (.trace .plain) =
      "app::main (main.rs:9)\n\tsize=3 _1=true path=/var" := by
  intro fields listed e own other
  obtain ⟨hfields, -, hown, -, hrows⟩ :=
    renderInstruction_inRows own ⟨.standard, false⟩ e fields .plain
  obtain ⟨-, -, hother, -⟩ := renderInstruction_inRows other ⟨.standard, false⟩ e fields .plain
  refine ⟨hfields.trans (by decide +kernel), (hown _ _ rfl).trans ?_, (hother _ _ rfl).trans ?_⟩
  · rw [hrows]
    decide +kernel
  · decide +kernel

end Logbook
