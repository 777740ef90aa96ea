/-!
# JSON values

A value as it is written: an object is the list of its members in writing
order, and a name may occur twice in it. `Json.sorted` is the form in which an
object is a map: the members of every object, however deep, stand in the order
of their names, and of two members with one name the later remains.
-/

namespace Logbook

/-- A JSON value. Numbers are whole, or floating point by the bits of either
    precision. -/
inductive Json where
  | null
  | bool (value : Bool)
  | integer (value : Int)
  | single (word : UInt32)
  | double (word : UInt64)
  | text (value : String)
  | array (elements : List Json)
  | object (members : List (String × Json))
  deriving Inhabited, Repr

namespace Json

/-- Puts a member where the order of names wants it, in the place of a member
    with the same name. -/
def insertMember (name : String) (value : α) : List (String × α) → List (String × α)
  | [] => [(name, value)]
  | (other, kept) :: rest =>
    if name < other then (name, value) :: (other, kept) :: rest
    else if name = other then (name, value) :: rest
    else (other, kept) :: insertMember name value rest

/-- The members in the order of their names, the last of each name. -/
def sortMembers (members : List (String × α)) : List (String × α) :=
  members.foldl (fun sorted (name, value) => insertMember name value sorted) []

mutual

/-- The value with every object in the order of its names. -/
def sorted : Json → Json
  | .array elements => .array (sortedElements elements)
  | .object members => .object (sortMembers (sortedMembers members))
  | value => value

/-- The elements with every object in them in the order of its names. -/
def sortedElements : List Json → List Json
  | [] => []
  | element :: rest => sorted element :: sortedElements rest

/-- The members, in their own order, with every object in their values in the
    order of its names. -/
def sortedMembers : List (String × Json) → List (String × Json)
  | [] => []
  | (name, value) :: rest => (name, sorted value) :: sortedMembers rest

end

/-- Every name is less than the next. -/
def NamesAscend (members : List (String × α)) : Prop :=
  members.Pairwise fun a b => a.1 < b.1

/-- A member of a map after an insertion is the inserted one or an old one. -/
theorem mem_insertMember {name : String} {value : α} {members : List (String × α)}
    {m : String × α} (h : m ∈ insertMember name value members) :
    m = (name, value) ∨ m ∈ members := by
  induction members with
  | nil => simpa [insertMember] using h
  | cons first rest ih =>
    obtain ⟨other, kept⟩ := first
    simp only [insertMember] at h
    split at h
    · simpa using h
    · split at h
      · rcases List.mem_cons.1 h with h | h
        · exact .inl h
        · exact .inr (List.mem_cons_of_mem _ h)
      · rcases List.mem_cons.1 h with h | h
        · exact .inr (h ▸ List.mem_cons_self)
        · rcases ih h with h | h
          · exact .inl h
          · exact .inr (List.mem_cons_of_mem _ h)

/-- Inserting keeps the names in ascending order. -/
theorem namesAscend_insertMember {name : String} {value : α} {members : List (String × α)}
    (h : NamesAscend members) : NamesAscend (insertMember name value members) := by
  induction members with
  | nil => simp [insertMember, NamesAscend]
  | cons first rest ih =>
    obtain ⟨other, kept⟩ := first
    obtain ⟨hfirst, hrest⟩ := List.pairwise_cons.1 h
    simp only [insertMember]
    split
    · next hlt =>
      refine List.pairwise_cons.2 ⟨fun m hm => ?_, h⟩
      rcases List.mem_cons.1 hm with rfl | hm
      · exact hlt
      · exact String.lt_trans hlt (hfirst m hm)
    · next hlt =>
      split
      · next heq =>
        subst heq
        exact List.pairwise_cons.2 ⟨hfirst, hrest⟩
      · next hne =>
        refine List.pairwise_cons.2 ⟨fun m hm => ?_, ih hrest⟩
        rcases mem_insertMember hm with rfl | hm
        · refine Decidable.byContradiction fun hgt => hne ?_
          exact String.le_antisymm (String.not_lt.1 hgt) (String.not_lt.1 hlt)
        · exact hfirst m hm

/-- The names of sorted members ascend, so each occurs once. -/
theorem namesAscend_sortMembers (members : List (String × α)) :
    NamesAscend (sortMembers members) := by
  suffices h : ∀ sorted : List (String × α), NamesAscend sorted →
      NamesAscend (members.foldl (fun sorted (name, value) => insertMember name value sorted)
        sorted) from h [] List.Pairwise.nil
  induction members with
  | nil => exact fun _ h => h
  | cons m members ih => exact fun sorted h => ih _ (namesAscend_insertMember h)

end Json

end Logbook
