import Logbook.Proofs.Router.Visits
import Logbook.Router.Dispatch

/-!
# Walks along slots

`addressGroups` are all slots of some groups in their order, each with its
address. A dispatch and a flush are walks along them: at every slot the router
passes by or makes one visit. `Walk` says what a single visit does to its slot, to
the world and to the diagnostics, and `Walk.account` what a walk does to all slots:
they hold what the visits so far leave them with.
-/

namespace Logbook

/-- The slots of a group with their addresses, of which the first has the given
    index. -/
def addressSlots (group index : Nat) (slots : List (Slot σ)) : List (Address × Slot σ) :=
  (slots.zipIdx index).map fun (slot, i) => (⟨group, i⟩, slot)

/-- The slots of groups with their addresses, of which the first group has the given
    index. -/
def addressGroups (index : Nat) (groups : List (Group σ)) : List (Address × Slot σ) :=
  (groups.zipIdx index).flatMap fun (g, i) => addressSlots i 0 g.slots

section Addresses

variable {group index : Nat} {slots : List (Slot σ)} {groups : List (Group σ)} {a : Address}

theorem addressSlots_cons (group index : Nat) (slot : Slot σ) (rest : List (Slot σ)) :
    addressSlots group index (slot :: rest) =
      (⟨group, index⟩, slot) :: addressSlots group (index + 1) rest := rfl

theorem addressGroups_cons (index : Nat) (g : Group σ) (rest : List (Group σ)) :
    addressGroups index (g :: rest) =
      addressSlots index 0 g.slots ++ addressGroups (index + 1) rest := rfl

theorem mem_addresses_slots (h : a ∈ (addressSlots group index slots).map Prod.fst) :
    a.group = group ∧ index ≤ a.index := by
  induction slots generalizing index with
  | nil => simp [addressSlots] at h
  | cons slot rest ih =>
    rw [addressSlots_cons, List.map_cons] at h
    rcases List.mem_cons.1 h with rfl | h
    · exact ⟨rfl, Nat.le_refl _⟩
    · obtain ⟨hgroup, hindex⟩ := ih h
      exact ⟨hgroup, Nat.le_of_succ_le hindex⟩

theorem mem_addresses_groups (h : a ∈ (addressGroups index groups).map Prod.fst) :
    index ≤ a.group := by
  induction groups generalizing index with
  | nil => simp [addressGroups] at h
  | cons g rest ih =>
    rw [addressGroups_cons, List.map_append] at h
    rcases List.mem_append.1 h with h | h
    · exact Nat.le_of_eq (mem_addresses_slots h).1.symm
    · exact Nat.le_of_succ_le (ih h)

theorem nodup_addresses_slots (group index : Nat) (slots : List (Slot σ)) :
    ((addressSlots group index slots).map Prod.fst).Nodup := by
  induction slots generalizing index with
  | nil => exact .nil
  | cons slot rest ih =>
    rw [addressSlots_cons, List.map_cons, List.nodup_cons]
    refine ⟨?_, ih (index + 1)⟩
    intro hmem
    exact Nat.lt_irrefl index (mem_addresses_slots hmem).2

/-- No two slots have the same address. -/
theorem nodup_addresses (index : Nat) (groups : List (Group σ)) :
    ((addressGroups index groups).map Prod.fst).Nodup := by
  induction groups generalizing index with
  | nil => exact .nil
  | cons g rest ih =>
    rw [addressGroups_cons, List.map_append, List.nodup_append]
    refine ⟨nodup_addresses_slots index 0 g.slots, ih (index + 1), ?_⟩
    intro a ha a' ha' heq
    have hgroup := (mem_addresses_slots ha).1
    have hlater := mem_addresses_groups ha'
    rw [← heq] at hlater
    omega

theorem mem_slots_of_mem_addressSlots {x : Address × Slot σ}
    (h : x ∈ addressSlots group index slots) : x.2 ∈ slots := by
  obtain ⟨place, hplace, rfl⟩ := List.mem_map.1 h
  exact List.fst_mem_of_mem_zipIdx hplace

theorem exists_mem_of_mem_addressGroups {x : Address × Slot σ}
    (h : x ∈ addressGroups index groups) : ∃ g ∈ groups, x.2 ∈ g.slots := by
  obtain ⟨place, hplace, hx⟩ := List.mem_flatMap.1 h
  exact ⟨place.1, List.fst_mem_of_mem_zipIdx hplace, mem_slots_of_mem_addressSlots hx⟩

end Addresses

/-- A slot behind a write with the given outcome keeps its first failure. -/
def Slot.keep (slot : Slot σ) (failure : Option Failure) : Slot σ :=
  { slot with failure := slot.failure.or failure }

theorem Slot.keep_of_held {slot : Slot σ} {failure : Failure} (h : slot.failure = some failure)
    (other : Option Failure) : slot.keep other = slot := by
  obtain ⟨sink, held⟩ := slot
  cases h
  rfl

/-- What is reported of a write to a slot: the failure that the slot stores. -/
def Slot.writeDiagnostics (a : Address) (slot : Slot σ) (failure : Option Failure) :
    List Diagnostic :=
  if slot.failure.isNone then failure.toList.map (.writeFailed a.group a.index) else []

theorem Slot.write_eq (b : SinkBackend σ ω) (a : Address) (bytes : List UInt8) (slot : Slot σ)
    (w : ω) :
    slot.write b a.group a.index bytes w =
      (slot.keep (b.write slot.sink bytes w).1, (b.write slot.sink bytes w).2,
        slot.writeDiagnostics a (b.write slot.sink bytes w).1) := by
  obtain ⟨sink, held⟩ := slot
  unfold Slot.write Slot.keep Slot.writeDiagnostics
  rcases b.write sink bytes w with ⟨_ | failure, world⟩ <;> cases held <;> rfl

/-- Along slots, at each of which a router passes by or makes one visit: what it
    visits, what it reports, and what it leaves of the slots and of the world. -/
inductive Walk (b : SinkBackend σ ω) :
    List (Address × Slot σ) → ω → List (Visit σ) → List Diagnostic →
      List (Address × Slot σ) → ω → Prop
  | done (w : ω) : Walk b [] w [] [] [] w
  | pass {x : Address × Slot σ} {slots slots' w w' visits diagnostics} :
      Walk b slots w visits diagnostics slots' w' →
      Walk b (x :: slots) w visits diagnostics (x :: slots') w'
  | write {a : Address} {slot : Slot σ} {slots slots' w w' visits diagnostics}
      (bytes : List UInt8) :
      Walk b slots (b.write slot.sink bytes w).2 visits diagnostics slots' w' →
      Walk b ((a, slot) :: slots) w
        (.call a ⟨.write slot.sink bytes, (b.write slot.sink bytes w).1⟩ :: visits)
        (slot.writeDiagnostics a (b.write slot.sink bytes w).1 ++ diagnostics)
        ((a, slot.keep (b.write slot.sink bytes w).1) :: slots') w'
  | flush {a : Address} {slot : Slot σ} {slots slots' w w' visits diagnostics} :
      slot.failure = none →
      Walk b slots (b.flush slot.sink w).2 visits diagnostics slots' w' →
      Walk b ((a, slot) :: slots) w
        (.call a ⟨.flush slot.sink, (b.flush slot.sink w).1⟩ :: visits)
        ((b.flush slot.sink w).1.toList.map (.flushFailed a.group a.index) ++ diagnostics)
        ((a, slot) :: slots') w'
  | report {a : Address} {slot : Slot σ} {failure : Failure}
      {slots slots' w w' visits diagnostics} :
      slot.failure = some failure →
      Walk b slots w visits diagnostics slots' w' →
      Walk b ((a, slot) :: slots) w (.report a failure :: visits) diagnostics
        ((a, Slot.new slot.sink) :: slots') w'

/-- Every slot holds what the visits so far leave it with. -/
def Holding (history : List (Visit σ)) (slots : List (Address × Slot σ)) : Prop :=
  ∀ x ∈ slots, x.2.failure = heldFailure x.1 history

namespace Walk

variable {b : SinkBackend σ ω} {slots slots' : List (Address × Slot σ)} {w w' : ω}
  {visits : List (Visit σ)} {diagnostics : List Diagnostic}

/-- A router may pass by all slots. -/
theorem refl (b : SinkBackend σ ω) (slots : List (Address × Slot σ)) (w : ω) :
    Walk b slots w [] [] slots w := by
  induction slots with
  | nil => exact .done w
  | cons x slots ih => exact .pass ih

theorem append {more more' : List (Address × Slot σ)} {w'' : ω} {visits' : List (Visit σ)}
    {diagnostics' : List Diagnostic} (h : Walk b slots w visits diagnostics slots' w')
    (hmore : Walk b more w' visits' diagnostics' more' w'') :
    Walk b (slots ++ more) w (visits ++ visits') (diagnostics ++ diagnostics')
      (slots' ++ more') w'' := by
  induction h with
  | done w => exact hmore
  | pass _ ih => exact .pass (ih hmore)
  | write bytes _ ih =>
    rw [List.append_assoc]
    exact .write bytes (ih hmore)
  | flush hnone _ ih =>
    rw [List.append_assoc]
    exact .flush hnone (ih hmore)
  | report hsome _ ih => exact .report hsome (ih hmore)

/-- A walk visits nothing but its slots. -/
theorem address_mem (h : Walk b slots w visits diagnostics slots' w') :
    ∀ v ∈ visits, v.address ∈ slots.map Prod.fst := by
  induction h with
  | done w => simp
  | pass _ ih => exact fun v hv => List.mem_cons_of_mem _ (ih v hv)
  | write bytes _ ih | flush _ _ ih | report _ _ ih =>
    exact List.forall_mem_cons.2
      ⟨List.mem_cons_self, fun v hv => List.mem_cons_of_mem _ (ih v hv)⟩

/-- The addresses and the sinks of slots do not change. -/
theorem map_sink (h : Walk b slots w visits diagnostics slots' w') :
    slots'.map (fun x => (x.1, x.2.sink)) = slots.map fun x => (x.1, x.2.sink) := by
  induction h with
  | done w => rfl
  | pass _ ih | write _ _ ih | flush _ _ ih | report _ _ ih =>
    exact congrArg (_ :: ·) ih

/-- A failure that is held stays where it is unless it is reported. -/
theorem keeps {before after : List (Address × Slot σ)} {a : Address} {slot : Slot σ}
    {failure : Failure} (h : Walk b (before ++ (a, slot) :: after) w visits diagnostics slots' w')
    (hheld : slot.failure = some failure) (hvisits : ∀ v ∈ visits, v.reported? a = none) :
    ∃ before' after', slots' = before' ++ (a, slot) :: after' ∧
      before'.map (fun x => x.2.sink) = before.map fun x => x.2.sink := by
  induction before generalizing w visits diagnostics slots' with
  | nil =>
    cases h with
    | pass hwalk => exact ⟨[], _, rfl, rfl⟩
    | write bytes hwalk =>
      rw [Slot.keep_of_held hheld]
      exact ⟨[], _, rfl, rfl⟩
    | flush hnone hwalk => exact absurd (hheld.symm.trans hnone) (Option.some_ne_none failure)
    | report hsome hwalk =>
      have hreported := hvisits _ List.mem_cons_self
      simp [Visit.reported?] at hreported
  | cons x before ih =>
    cases h with
    | pass hwalk =>
      obtain ⟨before', after', rfl, hsinks⟩ := ih hwalk hvisits
      exact ⟨_ :: before', after', rfl, congrArg (_ :: ·) hsinks⟩
    | write _ hwalk | flush _ hwalk | report _ hwalk =>
      obtain ⟨before', after', rfl, hsinks⟩ :=
        ih hwalk fun v hv => hvisits v (List.mem_cons_of_mem _ hv)
      exact ⟨_ :: before', after', rfl, congrArg (_ :: ·) hsinks⟩

/-- The log of the sinks holds the calls that the visits were. -/
theorem log_eq {w w' : ω × List (SinkCall σ)}
    (h : Walk b.logged slots w visits diagnostics slots' w') :
    w'.2 = w.2 ++ visits.filterMap Visit.call? := by
  induction h with
  | done w => exact (List.append_nil _).symm
  | pass _ ih | report _ _ ih => exact ih
  | write _ _ ih | flush _ _ ih =>
    rw [ih]
    exact List.append_assoc _ [_] _

end Walk

namespace Holding

variable {past visits : List (Visit σ)} {slots slots' : List (Address × Slot σ)}
  {a : Address} {slot slot' : Slot σ}

/-- Behind a visit of the first slot the others hold what they held. -/
theorem tail (h : Holding past ((a, slot) :: slots))
    (hnodup : (((a, slot) :: slots).map Prod.fst).Nodup) (v : Visit σ) (hv : v.address = a) :
    Holding (past ++ [v]) slots := by
  intro x hx
  have hne : v.address ≠ x.1 := by
    intro heq
    have hmem : x.1 ∈ slots.map Prod.fst := List.mem_map_of_mem hx
    rw [← heq, hv] at hmem
    exact (List.nodup_cons.1 hnodup).1 hmem
  rw [heldFailure_concat_of_ne hne]
  exact h x (List.mem_cons_of_mem _ hx)

/-- The first slot holds what its visit left, whatever happens to the others. -/
theorem cons (hnodup : (((a, slot) :: slots).map Prod.fst).Nodup)
    (hvisits : ∀ v ∈ visits, v.address ∈ slots.map Prod.fst)
    (hslot : slot'.failure = heldFailure a past) (h : Holding (past ++ visits) slots') :
    Holding (past ++ visits) ((a, slot') :: slots') := by
  rw [List.map_cons, List.nodup_cons] at hnodup
  refine List.forall_mem_cons.2 ⟨?_, h⟩
  have hne : ∀ v ∈ visits, v.address ≠ a := fun v hv heq => hnodup.1 (heq ▸ hvisits v hv)
  rw [heldFailure_append_of_ne hne]
  exact hslot

end Holding

/-- Behind a walk every slot holds what the visits leave it with. The visits fit to
    those before them, and they are what is reported. -/
theorem Walk.account {b : SinkBackend σ ω} {slots slots' : List (Address × Slot σ)} {w w' : ω}
    {past visits : List (Visit σ)} {diagnostics : List Diagnostic}
    (h : Walk b slots w visits diagnostics slots' w') (hnodup : (slots.map Prod.fst).Nodup)
    (hheld : Holding past slots) :
    Holding (past ++ visits) slots' ∧ Coherent past visits ∧
      diagnostics = visitDiagnostics past visits := by
  -- each visit joins the past of those behind it, and moves no slot but its own
  induction h generalizing past with
  | done w => exact ⟨by simp [Holding], .nil, rfl⟩
  | pass hwalk ih =>
    obtain ⟨hheld', hfits, hreports⟩ :=
      ih (List.nodup_cons.1 hnodup).2 fun x hx => hheld x (List.mem_cons_of_mem _ hx)
    exact ⟨.cons hnodup hwalk.address_mem (hheld _ List.mem_cons_self) hheld', hfits, hreports⟩
  | @write a slot _ _ w _ _ _ bytes hwalk ih =>
    obtain ⟨hheld', hfits, hreports⟩ := ih (List.nodup_cons.1 hnodup).2
      (hheld.tail hnodup (.call a ⟨.write slot.sink bytes, (b.write slot.sink bytes w).1⟩) rfl)
    have hslot : slot.failure = heldFailure a past := hheld _ List.mem_cons_self
    rw [List.append_cons]
    refine ⟨.cons hnodup hwalk.address_mem ?_ hheld', .cons trivial hfits, ?_⟩
    · rw [heldFailure_concat, ← hslot]
      simp [Visit.reported?, Visit.failedWrite?, Slot.keep]
    · rw [visitDiagnostics_cons, ← hreports, Slot.writeDiagnostics, hslot]
      congr 1
      simp only [Visit.diagnostic?, Visit.stored?, Visit.failedWrite?, Visit.address]
      cases heldFailure a past <;> cases (b.write slot.sink bytes w).1 <;> simp
  | @flush a slot _ _ w _ _ _ hnone hwalk ih =>
    obtain ⟨hheld', hfits, hreports⟩ := ih (List.nodup_cons.1 hnodup).2
      (hheld.tail hnodup (.call a ⟨.flush slot.sink, (b.flush slot.sink w).1⟩) rfl)
    have hslot : slot.failure = heldFailure a past := hheld _ List.mem_cons_self
    rw [List.append_cons]
    refine ⟨.cons hnodup hwalk.address_mem ?_ hheld', .cons (hslot.symm.trans hnone) hfits, ?_⟩
    · rw [heldFailure_concat, ← hslot]
      simp [Visit.reported?, Visit.failedWrite?]
    · rw [visitDiagnostics_cons, ← hreports]
      congr 1
      simp only [Visit.diagnostic?]
      cases (b.flush slot.sink w).1 <;> rfl
  | @report a slot failure _ _ _ _ _ _ hsome hwalk ih =>
    obtain ⟨hheld', hfits, hreports⟩ := ih (List.nodup_cons.1 hnodup).2
      (hheld.tail hnodup (.report a failure) rfl)
    have hslot : slot.failure = heldFailure a past := hheld _ List.mem_cons_self
    rw [List.append_cons]
    refine ⟨.cons hnodup hwalk.address_mem ?_ hheld', .cons (hslot.symm.trans hsome) hfits, ?_⟩
    · rw [heldFailure_concat]
      simp [Visit.reported?, Slot.new]
    · rw [visitDiagnostics_cons, ← hreports]
      simp [Visit.diagnostic?, Visit.stored?, Visit.failedWrite?]

end Logbook
