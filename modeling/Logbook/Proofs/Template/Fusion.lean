import Logbook.Template.Encoder
import Mathlib.Data.List.Chain

/-!
# Fusing literals

A list of instructions is fused if no literal in it is empty or stands beside another one.
`fuseLiterals` brings a list into this form (`isFused_fuseLiterals`), and leaves it alone
only if it is in this form already (`fuseLiterals_eq_self_iff`).

An empty literal makes no difference to it, and neither does cutting a literal in two. So
whatever goes through the instructions one by one and does not see how literal text is cut
finds the same in the fused list (`foldr_fuseLiterals`); the interpreter and the estimate
of the size are of this kind. Nothing else is lost: lists are fused to the same one exactly
if they are the same but for the cuts (`fuseLiterals_eq_iff`). `fuseLiterals_eq_foldl` fuses
from the front, one instruction at a time.
-/

namespace Logbook

/-- The instruction is literal text. A color sequence is none. -/
def Instruction.isLiteral : Instruction → Bool
  | literal _ => true
  | _ => false

theorem Instruction.exists_literal {instruction : Instruction} (h : instruction.isLiteral = true) :
    ∃ text, instruction = literal text := by
  cases instruction with
  | literal text => exact ⟨text, rfl⟩
  | _ => cases h

/-- No literal is empty, and no two literals stand side by side. -/
structure IsFused (instructions : List Instruction) : Prop where
  literal_ne_empty : ∀ text, Instruction.literal text ∈ instructions → text ≠ ""
  separated : instructions.IsChain fun a b => ¬ (a.isLiteral ∧ b.isLiteral)

variable {instruction : Instruction} {instructions rest xs ys : List Instruction} {s t : String}

/-! ### What fusing does not see -/

theorem fuseLiterals_cons_congr (instruction : Instruction) {xs ys : List Instruction}
    (h : fuseLiterals xs = fuseLiterals ys) :
    fuseLiterals (instruction :: xs) = fuseLiterals (instruction :: ys) := by
  cases instruction <;> simp only [fuseLiterals, h]

theorem fuseLiterals_append_congr (front : List Instruction) {xs ys : List Instruction}
    (h : fuseLiterals xs = fuseLiterals ys) :
    fuseLiterals (front ++ xs) = fuseLiterals (front ++ ys) := by
  induction front with
  | nil => exact h
  | cons instruction front ih => exact fuseLiterals_cons_congr instruction ih

theorem fuseLiterals_literal_empty (rest : List Instruction) :
    fuseLiterals (.literal "" :: rest) = fuseLiterals rest := by
  rw [fuseLiterals]
  split
  · next t merged heq => rw [heq, String.empty_append]
  · rfl

/-- Two literals in a row are one. -/
theorem fuseLiterals_literal_literal (s t : String) (rest : List Instruction) :
    fuseLiterals (.literal s :: .literal t :: rest) = fuseLiterals (.literal (s ++ t) :: rest) := by
  by_cases ht : t = ""
  · rw [ht, String.append_empty]
    exact fuseLiterals_cons_congr _ (fuseLiterals_literal_empty rest)
  · have hempty : t.isEmpty = false := by simpa using ht
    have happend : (s ++ t).isEmpty = false := by simp [String.isEmpty_eq_false_iff, ht]
    rw [fuseLiterals, fuseLiterals, fuseLiterals]
    cases hrest : fuseLiterals rest with
    | nil => simp [hempty, happend]
    | cons instruction merged =>
      cases instruction <;> simp [hempty, happend, String.append_assoc]

/-- Literals of the characters of a text are one literal. -/
theorem fuseLiterals_chars (cs : List Char) (rest : List Instruction) :
    fuseLiterals (cs.map (fun c => .literal (String.ofList [c])) ++ rest) =
      fuseLiterals (.literal (String.ofList cs) :: rest) := by
  induction cs with
  | nil => exact (fuseLiterals_literal_empty rest).symm
  | cons c cs ih =>
    rw [List.map_cons, List.cons_append, fuseLiterals_cons_congr _ ih, fuseLiterals_literal_literal,
      ← String.ofList_append, List.singleton_append]

/-- Instructions that were fused before may be fused again with others behind them. -/
theorem fuseLiterals_fuseLiterals_append (xs ys : List Instruction) :
    fuseLiterals (fuseLiterals xs ++ ys) = fuseLiterals (xs ++ ys) := by
  fun_induction fuseLiterals xs with
  | case1 => rfl
  | case2 s rest t merged hrest ih =>
    -- the joined literal is cut again, which leaves the fused rest behind the first part
    rw [List.cons_append, ← fuseLiterals_literal_literal, ← List.cons_append, ← hrest,
      List.cons_append]
    exact fuseLiterals_cons_congr _ ih
  | case3 s rest hempty hnot ih =>
    rw [String.isEmpty_iff.1 hempty, List.cons_append, fuseLiterals_literal_empty, ih]
  | case4 s rest hnot hfull ih => exact fuseLiterals_cons_congr _ ih
  | case5 instruction rest hnot ih => exact fuseLiterals_cons_congr _ ih

/-! ### The normal form -/

theorem isFused_nil : IsFused [] := ⟨nofun, .nil⟩

theorem isFused_singleton_iff : IsFused [instruction] ↔ instruction ≠ .literal "" := by
  constructor
  · rintro h rfl
    exact h.literal_ne_empty "" List.mem_cons_self rfl
  · intro h
    refine ⟨?_, .singleton _⟩
    rintro text hmem rfl
    exact h (List.mem_singleton.1 hmem).symm

/-- Fused lists may stand one behind the other unless literals meet. -/
theorem isFused_append_iff :
    IsFused (xs ++ ys) ↔ IsFused xs ∧ IsFused ys ∧
      ∀ a ∈ xs.getLast?, ∀ b ∈ ys.head?, ¬ (a.isLiteral ∧ b.isLiteral) := by
  constructor
  · rintro ⟨hne, hchain⟩
    obtain ⟨hxs, hys, hmeet⟩ := List.isChain_append.1 hchain
    exact ⟨⟨fun text hmem => hne text (List.mem_append_left _ hmem), hxs⟩,
      ⟨fun text hmem => hne text (List.mem_append_right _ hmem), hys⟩, hmeet⟩
  · rintro ⟨hxs, hys, hmeet⟩
    refine ⟨fun text hmem => ?_, hxs.separated.append hys.separated hmeet⟩
    rcases List.mem_append.1 hmem with hmem | hmem
    · exact hxs.literal_ne_empty text hmem
    · exact hys.literal_ne_empty text hmem

theorem isFused_cons_iff :
    IsFused (instruction :: rest) ↔ instruction ≠ .literal "" ∧ IsFused rest ∧
      ∀ next ∈ rest.head?, ¬ (instruction.isLiteral ∧ next.isLiteral) := by
  rw [← List.singleton_append, isFused_append_iff, isFused_singleton_iff]
  simp only [List.getLast?_singleton, Option.mem_some_iff, forall_eq']

theorem isFused_concat_iff :
    IsFused (xs ++ [instruction]) ↔ IsFused xs ∧ instruction ≠ .literal "" ∧
      ∀ last ∈ xs.getLast?, ¬ (last.isLiteral ∧ instruction.isLiteral) := by
  rw [isFused_append_iff, isFused_singleton_iff]
  simp only [List.head?_cons, Option.mem_some_iff, forall_eq']

theorem isFused_fuseLiterals (instructions : List Instruction) :
    IsFused (fuseLiterals instructions) := by
  fun_induction fuseLiterals instructions with
  | case1 => exact isFused_nil
  | case2 s rest t merged hrest ih =>
    rw [hrest, isFused_cons_iff] at ih
    obtain ⟨ht, hmerged, hmeet⟩ := ih
    have hst : Instruction.literal (s ++ t) ≠ .literal "" := by simp_all
    exact isFused_cons_iff.2 ⟨hst, hmerged, hmeet⟩
  | case3 s rest hempty hnot ih => exact ih
  | case4 s rest hfull hnot ih =>
    refine isFused_cons_iff.2 ⟨by simpa using hfull, ih, ?_⟩
    rintro next hnext ⟨-, hliteral⟩
    obtain ⟨text, rfl⟩ := Instruction.exists_literal hliteral
    obtain ⟨merged, hmerged⟩ := List.head?_eq_some_iff.1 hnext
    exact hnot text merged hmerged
  | case5 instruction rest hnot ih =>
    refine isFused_cons_iff.2 ⟨hnot "", ih, ?_⟩
    rintro next - ⟨hliteral, -⟩
    obtain ⟨text, rfl⟩ := Instruction.exists_literal hliteral
    exact hnot text rfl

theorem IsFused.fuseLiterals_eq (h : IsFused instructions) :
    fuseLiterals instructions = instructions := by
  induction instructions with
  | nil => rfl
  | cons instruction rest ih =>
    obtain ⟨hne, hrest, hmeet⟩ := isFused_cons_iff.1 h
    cases instruction with
    | literal s =>
      have hs : s.isEmpty = false := by simpa using hne
      -- no literal comes next, so that nothing is joined
      rw [fuseLiterals, ih hrest]
      cases rest with
      | nil => simp [hs]
      | cons next rest =>
        cases next with
        | literal t => exact absurd ⟨rfl, rfl⟩ (hmeet (.literal t) rfl)
        | _ => simp [hs]
    | _ => rw [fuseLiterals, ih hrest]; simp

/-- A list is left alone exactly if it is fused. -/
theorem fuseLiterals_eq_self_iff :
    fuseLiterals instructions = instructions ↔ IsFused instructions :=
  ⟨fun h => h ▸ isFused_fuseLiterals instructions, IsFused.fuseLiterals_eq⟩

/-! ### Fusing from the front -/

/-- Fused instructions with one more behind them: a literal continues the literal at their
    end, if there is one. -/
def fuseOnto (merged : List Instruction) : Instruction → List Instruction
  | .literal s =>
    match merged.getLast? with
    | some (.literal t) => merged.dropLast ++ [.literal (t ++ s)]
    | _ => if s.isEmpty then merged else merged ++ [.literal s]
  | instruction => merged ++ [instruction]

/-- One more instruction behind a fused list. -/
theorem IsFused.fuseLiterals_concat (h : IsFused xs) (instruction : Instruction) :
    fuseLiterals (xs ++ [instruction]) = fuseOnto xs instruction := by
  unfold fuseOnto
  split
  · next s =>
    split
    · next t hlast =>
      obtain ⟨front, rfl⟩ := List.getLast?_eq_some_iff.1 hlast
      obtain ⟨hfront, ht, hmeet⟩ := isFused_concat_iff.1 h
      have hts : Instruction.literal (t ++ s) ≠ .literal "" := by simp_all
      have hjoined : IsFused (front ++ [.literal (t ++ s)]) :=
        isFused_concat_iff.2 ⟨hfront, hts, hmeet⟩
      rw [List.dropLast_concat, List.append_assoc, ← hjoined.fuseLiterals_eq]
      exact fuseLiterals_append_congr front (fuseLiterals_literal_literal t s [])
    · next hlast =>
      split
      · next hempty =>
        rw [String.isEmpty_iff.1 hempty,
          fuseLiterals_append_congr xs (fuseLiterals_literal_empty []), List.append_nil,
          h.fuseLiterals_eq]
      · next hfull =>
        have hs : Instruction.literal s ≠ .literal "" := by simpa using hfull
        refine (isFused_concat_iff.2 ⟨h, hs, ?_⟩).fuseLiterals_eq
        rintro last hmem ⟨hliteral, -⟩
        obtain ⟨text, rfl⟩ := Instruction.exists_literal hliteral
        exact hlast text hmem
  · next hother =>
    refine (isFused_concat_iff.2 ⟨h, hother "", ?_⟩).fuseLiterals_eq
    rintro - - ⟨-, hliteral⟩
    obtain ⟨text, rfl⟩ := Instruction.exists_literal hliteral
    exact hother text rfl

/-- Fusing is one pass from the front, which keeps what is fused so far. -/
theorem fuseLiterals_eq_foldl (instructions : List Instruction) :
    fuseLiterals instructions = instructions.foldl fuseOnto [] := by
  induction instructions using List.reverseRecOn with
  | nil => rfl
  | append_singleton front instruction ih =>
    -- the last instruction may as well stand behind the fused front
    rw [List.foldl_append, ← ih, ← fuseLiterals_fuseLiterals_append,
      (isFused_fuseLiterals front).fuseLiterals_concat]
    rfl

/-! ### What the fused list keeps -/

/-- Going through instructions one by one, from the end, finds the same in the fused list
    if it does not see how literal text is cut. -/
theorem foldr_fuseLiterals {α : Type} {f : Instruction → α → α}
    (hempty : ∀ a, f (.literal "") a = a)
    (happend : ∀ s t a, f (.literal (s ++ t)) a = f (.literal s) (f (.literal t) a))
    (instructions : List Instruction) (a : α) :
    (fuseLiterals instructions).foldr f a = instructions.foldr f a := by
  fun_induction fuseLiterals instructions with
  | case1 => rfl
  | case2 s rest t merged hrest ih =>
    rw [hrest, List.foldr_cons] at ih
    rw [List.foldr_cons, happend, ih, List.foldr_cons]
  | case3 s rest hs hnot ih =>
    rw [String.isEmpty_iff.1 hs, List.foldr_cons, hempty, ih]
  | case4 s rest hnot hs ih => rw [List.foldr_cons, ih, List.foldr_cons]
  | case5 instruction rest hnot ih => rw [List.foldr_cons, ih, List.foldr_cons]

/-- Literal text apart, fusing literals keeps the instructions. -/
theorem filter_fuseLiterals {chosen : Instruction → Bool} (h : ∀ s, chosen (.literal s) = false)
    (instructions : List Instruction) :
    (fuseLiterals instructions).filter chosen = instructions.filter chosen := by
  rw [List.filter_eq_foldr, List.filter_eq_foldr]
  exact foldr_fuseLiterals (fun _ => by rw [h]; rfl) (fun _ _ _ => by rw [h, h, h]; rfl) _ _

/-- An instruction with literal text cut into its characters. -/
def Instruction.spread : Instruction → List Instruction
  | literal s => s.toList.map fun c => literal (String.ofList [c])
  | instruction => [instruction]

theorem fuseLiterals_spread (instructions : List Instruction) :
    fuseLiterals (instructions.flatMap Instruction.spread) = fuseLiterals instructions := by
  induction instructions with
  | nil => rfl
  | cons instruction rest ih =>
    rw [List.flatMap_cons]
    cases instruction with
    | literal s =>
      rw [Instruction.spread, fuseLiterals_chars, String.ofList_toList]
      exact fuseLiterals_cons_congr _ ih
    | _ => exact fuseLiterals_cons_congr _ ih

theorem spread_fuseLiterals (instructions : List Instruction) :
    (fuseLiterals instructions).flatMap Instruction.spread =
      instructions.flatMap Instruction.spread := by
  have hfold : ∀ instructions : List Instruction, instructions.flatMap Instruction.spread =
      instructions.foldr (fun i behind => i.spread ++ behind) [] := by
    intro instructions
    induction instructions with
    | nil => rfl
    | cons instruction rest ih => rw [List.flatMap_cons, ih, List.foldr_cons]
  rw [hfold, hfold]
  refine foldr_fuseLiterals (fun _ => rfl) (fun s t behind => ?_) _ _
  simp only [Instruction.spread, String.toList_append, List.map_append, List.append_assoc]

/-- Two lists are fused to the same one exactly if they differ only in how their literal
    text is cut. -/
theorem fuseLiterals_eq_iff :
    fuseLiterals xs = fuseLiterals ys ↔
      xs.flatMap Instruction.spread = ys.flatMap Instruction.spread := by
  constructor
  · intro h
    rw [← spread_fuseLiterals xs, h, spread_fuseLiterals]
  · intro h
    rw [← fuseLiterals_spread xs, h, fuseLiterals_spread]

/-! ### Programs of fused lists -/

theorem Text.concat_eq_foldr (texts : List String) : concat texts = texts.foldr (· ++ ·) "" := by
  induction texts with
  | nil => rfl
  | cons text texts ih => rw [concat_cons, ih, List.foldr_cons]

namespace Program

variable (instructions : List Instruction) (layout : FrameLayout)

theorem expectedSize_fuseLiterals :
    expectedSize ⟨fuseLiterals instructions, layout⟩ = expectedSize ⟨instructions, layout⟩ := by
  refine foldr_fuseLiterals (fun _ => Nat.zero_add _) (fun s t size => ?_) _ _
  simp only [Instruction.estimate, String.utf8ByteSize_append, Nat.add_assoc]

theorem fieldsStyle?_fuseLiterals :
    fieldsStyle? ⟨fuseLiterals instructions, layout⟩ = fieldsStyle? ⟨instructions, layout⟩ := by
  have hfold : ∀ instructions : List Instruction,
      instructions.findSome? Instruction.fieldsStyle? =
        instructions.foldr (fun i found => i.fieldsStyle?.or found) none := by
    intro instructions
    induction instructions with
    | nil => rfl
    | cons instruction rest ih =>
      rw [List.findSome?_cons, List.foldr_cons, ← ih]
      cases instruction.fieldsStyle? <;> rfl
  rw [fieldsStyle?, fieldsStyle?, hfold, hfold]
  exact foldr_fuseLiterals (fun _ => rfl) (fun _ _ _ => rfl) _ _

/-- What an instruction writes depends on its program by the layout of frames and of the
    fields beneath them. -/
theorem renderInstruction_congr {p q : Program} (hframes : p.frameLayout = q.frameLayout)
    (hfields : p.fieldsStyle? = q.fieldsStyle?) (settings : RenderSettings) (e : Event) :
    p.renderInstruction settings e = q.renderInstruction settings e := by
  funext instruction
  cases instruction <;> simp only [renderInstruction, traceStyle, hframes, hfields]

theorem render_fuseLiterals (settings : RenderSettings) (e : Event) :
    render ⟨fuseLiterals instructions, layout⟩ settings e =
      render ⟨instructions, layout⟩ settings e := by
  have hsame := renderInstruction_congr (p := ⟨fuseLiterals instructions, layout⟩)
    (q := ⟨instructions, layout⟩) rfl (fieldsStyle?_fuseLiterals instructions layout) settings e
  rw [render, render, hsame, Text.concat_eq_foldr, Text.concat_eq_foldr, List.foldr_map,
    List.foldr_map]
  exact foldr_fuseLiterals (fun _ => String.empty_append) (fun _ _ _ => String.append_assoc) _ _

/-- Every compiled program is fused. -/
theorem isFused_compile (template : String) : IsFused (compile template).program.instructions :=
  isFused_fuseLiterals _

end Program

/-- Fusing literals is a normal form that changes no meaning. The fused list has no empty
    literal and no two literals side by side; to fuse it again changes nothing, and exactly
    the lists of this form are left alone. The other instructions stay, in their order. A
    program of the fused list makes the same octets of every event, under all settings, and
    expects as many of them. Every compiled program is fused. -/
theorem fuseLiterals_normal :
    (∀ instructions : List Instruction,
      IsFused (fuseLiterals instructions) ∧
      fuseLiterals (fuseLiterals instructions) = fuseLiterals instructions ∧
      (fuseLiterals instructions = instructions ↔ IsFused instructions) ∧
      (fuseLiterals instructions).filter (! ·.isLiteral) =
        instructions.filter (! ·.isLiteral) ∧
      ∀ layout settings,
        Encoder.ofText (Template.encode ⟨⟨fuseLiterals instructions, layout⟩, settings⟩) =
          Encoder.ofText (Template.encode ⟨⟨instructions, layout⟩, settings⟩) ∧
        Program.expectedSize ⟨fuseLiterals instructions, layout⟩ =
          Program.expectedSize ⟨instructions, layout⟩) ∧
    ∀ template, IsFused (Program.compile template).program.instructions := by
  refine ⟨fun instructions => ⟨isFused_fuseLiterals instructions, ?_, fuseLiterals_eq_self_iff,
    filter_fuseLiterals (fun _ => rfl) instructions, fun layout settings => ⟨?_, ?_⟩⟩,
    Program.isFused_compile⟩
  · exact (isFused_fuseLiterals instructions).fuseLiterals_eq
  · exact congrArg Encoder.ofText
      (funext fun e => Program.render_fuseLiterals instructions layout settings e)
  · exact Program.expectedSize_fuseLiterals instructions layout

example : fuseLiterals [.literal "", .literal "a", .literal "", .literal "b", .levelColor] =
    [.literal "ab", .levelColor] := by rfl

end Logbook
