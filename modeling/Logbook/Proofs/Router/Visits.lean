import Logbook.Proofs.Sink.Logged
import Logbook.Router.Group

/-!
# Visits of slots

A router visits its slots one after another: it calls the sink of a slot, or it
reports the failure that the slot holds. A list of visits determines what every
slot holds: the failure of the first write to it that failed behind the last
report (`heldFailure`). It also determines which failures were stored and which
diagnostics were emitted. `Coherent.stored_eq` is the account of a slot: what was
stored in it is what was reported of it and what it holds.
-/

namespace Logbook

/-- Where a slot stands: its group, and its place in the group. -/
structure Address where
  group : Nat
  index : Nat
  deriving DecidableEq, Repr

/-- The entries of a list behind some others, each with those before it. -/
def withPast {α : Type} (past : List α) : List α → List (List α × α)
  | [] => []
  | a :: rest => (past, a) :: withPast (past ++ [a]) rest

theorem withPast_append {α : Type} (past xs ys : List α) :
    withPast past (xs ++ ys) = withPast past xs ++ withPast (past ++ xs) ys := by
  induction xs generalizing past with
  | nil => simp [withPast]
  | cons x xs ih => simp [withPast, ih]

theorem filterMap_withPast_cons {α β : Type} (f : List α × α → Option β) (past : List α) (a : α)
    (rest : List α) :
    (withPast past (a :: rest)).filterMap f =
      (f (past, a)).toList ++ (withPast (past ++ [a]) rest).filterMap f := by
  rw [withPast, List.filterMap_cons]
  cases f (past, a) <;> rfl

/-- What a router does at a slot. -/
inductive Visit (σ : Type) where
  | call (address : Address) (call : SinkCall σ)
  | report (address : Address) (failure : Failure)

namespace Visit

def address : Visit σ → Address
  | call a _ | report a _ => a

/-- The call of a sink that the visit was. -/
def call? : Visit σ → Option (SinkCall σ)
  | call _ c => some c
  | report _ _ => none

/-- The failure of a write at the address. -/
def failedWrite? (a : Address) : Visit σ → Option Failure
  | call a' ⟨.write _ _, failure⟩ => if a' = a then failure else none
  | _ => none

/-- The failure that was reported of the slot at the address. -/
def reported? (a : Address) : Visit σ → Option Failure
  | report a' failure => if a' = a then some failure else none
  | _ => none

theorem failedWrite?_of_ne {a : Address} {v : Visit σ} (h : v.address ≠ a) :
    v.failedWrite? a = none := by
  rcases v with ⟨a', ⟨_ | _, failure⟩⟩ | ⟨a', failure⟩
  · exact if_neg h
  · rfl
  · rfl

/-- A visit elsewhere reports nothing here. -/
theorem reported?_of_ne {a : Address} {v : Visit σ} (h : v.address ≠ a) : v.reported? a = none := by
  cases v with
  | call a' c => rfl
  | report a' failure => exact if_neg h

end Visit

/-- The visits behind the last report of the slot at the address. -/
def sinceReport (a : Address) (history : List (Visit σ)) : List (Visit σ) :=
  (history.reverse.takeWhile fun v => (v.reported? a).isNone).reverse

/-- The failure of the first write at the address that failed since the last report. -/
def heldFailure (a : Address) (history : List (Visit σ)) : Option Failure :=
  (sinceReport a history).findSome? (Visit.failedWrite? a)

/-- The failures that were reported of the slot at the address. -/
def reportedFailures (a : Address) (history : List (Visit σ)) : List Failure :=
  history.filterMap (Visit.reported? a)

namespace Visit

/-- The failure that a visit behind others stores at the address: that of a write,
    unless the slot holds one. -/
def stored? (a : Address) (past : List (Visit σ)) (v : Visit σ) : Option Failure :=
  if (heldFailure a past).isNone then v.failedWrite? a else none

/-- What is reported of a visit behind others: a failure that is stored, or a flush
    that failed. -/
def diagnostic? (past : List (Visit σ)) (v : Visit σ) : Option Diagnostic :=
  match v with
  | call a ⟨.flush _, failure⟩ => failure.map (.flushFailed a.group a.index)
  | v => (v.stored? v.address past).map (.writeFailed v.address.group v.address.index)

/-- The visit may come behind others: a report tells what the slot holds, and a
    sink is flushed only while its slot holds nothing. -/
def Fits (past : List (Visit σ)) : Visit σ → Prop
  | report a failure => heldFailure a past = some failure
  | call a ⟨.flush _, _⟩ => heldFailure a past = none
  | call _ ⟨.write _ _, _⟩ => True

end Visit

/-- The failures that visits behind others store at the address. -/
def storedFailures (a : Address) (past visits : List (Visit σ)) : List Failure :=
  (withPast past visits).filterMap fun (past, v) => v.stored? a past

/-- What visits behind others report. -/
def visitDiagnostics (past visits : List (Visit σ)) : List Diagnostic :=
  (withPast past visits).filterMap fun (past, v) => v.diagnostic? past

/-- Every visit fits to those before it. -/
def Coherent (past visits : List (Visit σ)) : Prop :=
  ∀ place ∈ withPast past visits, place.2.Fits place.1

section Held

variable {a : Address} {past history : List (Visit σ)} {v : Visit σ}

/-- A report empties a slot, and a failed write fills one that is empty. -/
theorem heldFailure_concat (a : Address) (history : List (Visit σ)) (v : Visit σ) :
    heldFailure a (history ++ [v]) =
      if (v.reported? a).isNone then (heldFailure a history).or (v.failedWrite? a) else none := by
  unfold heldFailure sinceReport
  rw [List.reverse_append, List.reverse_singleton, List.singleton_append, List.takeWhile_cons]
  split
  · rw [List.reverse_cons, List.findSome?_append]
    simp
  · rfl

theorem heldFailure_concat_of_ne (h : v.address ≠ a) :
    heldFailure a (history ++ [v]) = heldFailure a history := by
  rw [heldFailure_concat, Visit.reported?_of_ne h, Visit.failedWrite?_of_ne h]
  exact Option.or_none

/-- Visits of other slots change nothing. -/
theorem heldFailure_append_of_ne {visits : List (Visit σ)} (h : ∀ v ∈ visits, v.address ≠ a) :
    heldFailure a (history ++ visits) = heldFailure a history := by
  induction visits generalizing history with
  | nil => rw [List.append_nil]
  | cons v visits ih =>
    obtain ⟨hv, hvisits⟩ := List.forall_mem_cons.1 h
    rw [List.append_cons, ih hvisits, heldFailure_concat_of_ne hv]

end Held

theorem visitDiagnostics_append (past xs ys : List (Visit σ)) :
    visitDiagnostics past (xs ++ ys) =
      visitDiagnostics past xs ++ visitDiagnostics (past ++ xs) ys := by
  rw [visitDiagnostics, withPast_append, List.filterMap_append]
  rfl

theorem visitDiagnostics_cons (past : List (Visit σ)) (v : Visit σ) (visits : List (Visit σ)) :
    visitDiagnostics past (v :: visits) =
      (v.diagnostic? past).toList ++ visitDiagnostics (past ++ [v]) visits :=
  filterMap_withPast_cons _ past v visits

namespace Coherent

variable {past visits : List (Visit σ)} {v : Visit σ}

theorem nil : Coherent past ([] : List (Visit σ)) := by simp [Coherent, withPast]

theorem cons (hv : v.Fits past) (h : Coherent (past ++ [v]) visits) :
    Coherent past (v :: visits) := List.forall_mem_cons.2 ⟨hv, h⟩

theorem append {more : List (Visit σ)} (h : Coherent past visits)
    (hmore : Coherent (past ++ visits) more) : Coherent past (visits ++ more) := by
  intro place hplace
  rw [withPast_append] at hplace
  rcases List.mem_append.1 hplace with hplace | hplace
  · exact h place hplace
  · exact hmore place hplace

/-- A visit moves a failure from what is held to what is reported, or adds one. -/
theorem stored?_balance (hv : v.Fits past) (a : Address) :
    (heldFailure a past).toList ++ (v.stored? a past).toList =
      (v.reported? a).toList ++ (heldFailure a (past ++ [v])).toList := by
  rw [heldFailure_concat, Visit.stored?]
  cases v with
  | call a' c =>
    -- a call reports nothing, and its failure is stored where none is held
    have hnone : (Visit.call a' c).reported? a = none := rfl
    cases heldFailure a past <;> simp [hnone]
  | report a' failure =>
    have hwrite : (Visit.report a' failure : Visit σ).failedWrite? a = none := rfl
    by_cases ha : a' = a
    · subst ha
      have hheld : heldFailure a' past = some failure := hv
      simp [hheld, Visit.reported?]
    · have hnone : (Visit.report a' failure : Visit σ).reported? a = none := if_neg ha
      simp [hwrite, hnone]

/-- The account of a slot behind other visits: what it held and what was stored in
    it is what was reported of it and what it holds. -/
theorem stored_eq (h : Coherent past visits) (a : Address) :
    (heldFailure a past).toList ++ storedFailures a past visits =
      reportedFailures a visits ++ (heldFailure a (past ++ visits)).toList := by
  induction visits generalizing past with
  | nil => simp [storedFailures, withPast, reportedFailures]
  | cons v visits ih =>
    obtain ⟨hfits, hvisits⟩ := List.forall_mem_cons.1 h
    have hv : v.Fits past := hfits
    have hstored : storedFailures a past (v :: visits) =
        (v.stored? a past).toList ++ storedFailures a (past ++ [v]) visits :=
      filterMap_withPast_cons _ past v visits
    have hreported : reportedFailures a (v :: visits) =
        (v.reported? a).toList ++ reportedFailures a visits := by
      rw [reportedFailures, List.filterMap_cons]
      cases v.reported? a <;> rfl
    calc (heldFailure a past).toList ++ storedFailures a past (v :: visits)
        = (v.reported? a).toList ++ ((heldFailure a (past ++ [v])).toList ++
            storedFailures a (past ++ [v]) visits) := by
          rw [hstored, ← List.append_assoc, stored?_balance hv, List.append_assoc]
      _ = reportedFailures a (v :: visits) ++ (heldFailure a (past ++ v :: visits)).toList := by
          rw [List.append_cons past v visits, ih hvisits, ← List.append_assoc, hreported]

end Coherent

end Logbook
