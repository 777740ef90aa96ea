import Logbook.Json.Value
import Mathlib.Data.List.Induction

/-!
# JSON values in the order of names

A value is in order if `Json.sorted` leaves it as it is: the names of every object in
it ascend. Arrays of values in order are in order, and so are objects whose members were
sorted, with values in order.
-/

namespace Logbook.Json

/-- A name behind all others is inserted at the end. -/
theorem insertMember_last {name : String} {value : α} {members : List (String × α)}
    (h : ∀ m ∈ members, m.1 < name) :
    insertMember name value members = members ++ [(name, value)] := by
  induction members with
  | nil => rfl
  | cons m members ih =>
    have hm : m.1 < name := h m List.mem_cons_self
    have hne : name ≠ m.1 := fun heq => String.lt_irrefl name (heq.symm ▸ hm)
    rw [insertMember, if_neg (String.lt_asymm hm), if_neg hne,
      ih fun m hm => h m (List.mem_cons_of_mem _ hm)]
    rfl

theorem sortMembers_concat (members : List (String × α)) (m : String × α) :
    sortMembers (members ++ [m]) = insertMember m.1 m.2 (sortMembers members) := by
  rw [sortMembers, List.foldl_append]
  rfl

/-- Sorting leaves members alone whose names ascend. -/
theorem sortMembers_eq_self {members : List (String × α)} (h : NamesAscend members) :
    sortMembers members = members := by
  induction members using List.reverseRecOn with
  | nil => rfl
  | append_singleton members m ih =>
    obtain ⟨hmembers, -, hlast⟩ := List.pairwise_append.1 h
    rw [sortMembers_concat, ih hmembers]
    exact insertMember_last fun other hother => hlast other hother m List.mem_cons_self

/-- Sorting adds no members. -/
theorem mem_of_mem_sortMembers {members : List (String × α)} {m : String × α}
    (h : m ∈ sortMembers members) : m ∈ members := by
  induction members using List.reverseRecOn with
  | nil => exact h
  | append_singleton members last ih =>
    rw [sortMembers_concat] at h
    rcases mem_insertMember h with rfl | h
    · exact List.mem_append_right _ List.mem_cons_self
    · exact List.mem_append_left _ (ih h)

theorem sortedElements_eq_self {elements : List Json} (h : ∀ v ∈ elements, v.sorted = v) :
    sortedElements elements = elements := by
  induction elements with
  | nil => rfl
  | cons v elements ih =>
    rw [sortedElements, h v List.mem_cons_self, ih fun w hw => h w (List.mem_cons_of_mem v hw)]

theorem sortedMembers_eq_self {members : List (String × Json)}
    (h : ∀ m ∈ members, m.2.sorted = m.2) : sortedMembers members = members := by
  induction members with
  | nil => rfl
  | cons m members ih =>
    rw [sortedMembers, h m List.mem_cons_self, ih fun w hw => h w (List.mem_cons_of_mem m hw)]

/-- An array of values in order is in order. -/
theorem sorted_array {elements : List Json} (h : ∀ v ∈ elements, v.sorted = v) :
    (array elements).sorted = array elements := by
  rw [sorted, sortedElements_eq_self h]

/-- An object with ascending names and values in order is in order. -/
theorem sorted_object {members : List (String × Json)} (hnames : NamesAscend members)
    (h : ∀ m ∈ members, m.2.sorted = m.2) : (object members).sorted = object members := by
  rw [sorted, sortedMembers_eq_self h, sortMembers_eq_self hnames]

/-- An object of one member with a value in order is in order. -/
theorem sorted_object_singleton {name : String} {value : Json} (h : value.sorted = value) :
    (object [(name, value)]).sorted = object [(name, value)] :=
  sorted_object (List.pairwise_singleton _ _) fun m hm => by rw [List.mem_singleton.1 hm]; exact h

/-- An object of sorted members with values in order is in order. -/
theorem sorted_object_sortMembers {members : List (String × Json)}
    (h : ∀ m ∈ members, m.2.sorted = m.2) :
    (object (sortMembers members)).sorted = object (sortMembers members) :=
  sorted_object (namesAscend_sortMembers members) fun m hm => h m (mem_of_mem_sortMembers hm)

end Logbook.Json
