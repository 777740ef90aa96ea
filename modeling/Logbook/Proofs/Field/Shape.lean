import Logbook.Field.Shape
import Logbook.Proofs.Json.Sorted

/-!
# Shapes as payloads and as JSON values

A shape becomes a payload at once where it is a scalar, and by its JSON value where it
is not. `Payload.ofShape_agrees` says that the first way differs from the second only
for floating point numbers behind optional and wrapping layers: one of single precision
keeps its word, and one that is not finite is a number and not null.
-/

namespace Logbook

namespace Shape

/-- The shape without the optional and wrapping layers around it. -/
def core : Shape → Shape
  | .present content | .wrapped content => content.core
  | shape => shape

/-- The shape is a double precision number that is not finite, behind nothing but
    optional and wrapping layers. -/
def IsNotFinite (shape : Shape) : Prop :=
  ∃ word, shape.core = .float64 word ∧ ∀ negative mantissa exponent,
    Decimal.Format.double.decode word.toNat ≠ .finite negative mantissa exponent

/-- Optional and wrapping layers make no difference for the JSON value. -/
theorem toJson?_core (shape : Shape) : shape.core.toJson? = shape.toJson? := by
  fun_induction core shape with
  | case1 content ih => rw [ih, toJson?]
  | case2 content ih => rw [ih, toJson?]
  | case3 shape => rfl

/-- Optional and wrapping layers make no difference for the payload. -/
theorem ofShape_core (shape : Shape) : Payload.ofShape shape.core = Payload.ofShape shape := by
  fun_induction core shape with
  | case1 content ih => rw [ih, Payload.ofShape]
  | case2 content ih => rw [ih, Payload.ofShape]
  | case3 shape => rfl

theorem sorted_double (word : UInt64) : (double word).sorted = double word := by
  unfold double
  split <;> rfl

theorem eq_of_integer? {n : Int} {value : Json} (h : integer? n = some value) :
    value = .integer n := by
  unfold integer? at h
  split at h
  · exact (Option.some.inj h).symm
  · cases h

mutual

/-- The JSON value of a shape is in the order of names. -/
theorem sorted_toJson? (shape : Shape) {value : Json} (h : shape.toJson? = some value) :
    value.sorted = value := by
  cases shape with
  | bool _ | int8 _ | int16 _ | int32 _ | int64 _ | nat8 _ | nat16 _ | nat32 _ | nat64 _ | char _
  | text _ | absent | unit | bareVariant _ =>
    obtain rfl := Option.some.inj h
    rfl
  | wideInt n =>
    obtain rfl := eq_of_integer? h
    rfl
  | wideNat n =>
    obtain rfl := eq_of_integer? h
    rfl
  | float32 word =>
    obtain rfl := Option.some.inj h
    exact sorted_double _
  | float64 word =>
    obtain rfl := Option.some.inj h
    exact sorted_double _
  | octets bytes =>
    obtain rfl := Option.some.inj h
    refine Json.sorted_array fun v hv => ?_
    obtain ⟨b, -, rfl⟩ := List.mem_map.1 hv
    rfl
  | present content => exact sorted_toJson? content h
  | wrapped content => exact sorted_toJson? content h
  | variant name content =>
    obtain ⟨v, hv, rfl⟩ := Option.map_eq_some_iff.1 h
    exact Json.sorted_object_singleton (sorted_toJson? content hv)
  | sequence elements =>
    obtain ⟨values, hvalues, rfl⟩ := Option.map_eq_some_iff.1 h
    exact Json.sorted_array (sorted_elementsToJson? elements hvalues)
  | sequenceVariant name elements =>
    obtain ⟨values, hvalues, rfl⟩ := Option.map_eq_some_iff.1 h
    exact Json.sorted_object_singleton (Json.sorted_array (sorted_elementsToJson? elements hvalues))
  | map entries =>
    obtain ⟨members, hmembers, rfl⟩ := Option.map_eq_some_iff.1 h
    exact Json.sorted_object_sortMembers (sorted_entriesToJson? entries hmembers)
  | record fields =>
    obtain ⟨members, hmembers, rfl⟩ := Option.map_eq_some_iff.1 h
    exact Json.sorted_object_sortMembers (sorted_fieldsToJson? fields hmembers)
  | recordVariant name fields =>
    obtain ⟨members, hmembers, rfl⟩ := Option.map_eq_some_iff.1 h
    exact Json.sorted_object_singleton
      (Json.sorted_object_sortMembers (sorted_fieldsToJson? fields hmembers))
  | failing _ => cases h

theorem sorted_elementsToJson? (elements : List Shape) {values : List Json}
    (h : elementsToJson? elements = some values) : ∀ v ∈ values, v.sorted = v := by
  match elements with
  | [] =>
    obtain rfl := Option.some.inj h
    exact List.forall_mem_nil _
  | element :: rest =>
    obtain ⟨v, hv, h⟩ := Option.bind_eq_some_iff.1 h
    obtain ⟨vs, hvs, h⟩ := Option.bind_eq_some_iff.1 h
    obtain rfl := Option.some.inj h
    exact List.forall_mem_cons.2 ⟨sorted_toJson? element hv, sorted_elementsToJson? rest hvs⟩

theorem sorted_entriesToJson? (entries : List (Shape × Shape)) {members : List (String × Json)}
    (h : entriesToJson? entries = some members) : ∀ m ∈ members, m.2.sorted = m.2 := by
  match entries with
  | [] =>
    obtain rfl := Option.some.inj h
    exact List.forall_mem_nil _
  | (key, content) :: rest =>
    obtain ⟨name, -, h⟩ := Option.bind_eq_some_iff.1 h
    obtain ⟨v, hv, h⟩ := Option.bind_eq_some_iff.1 h
    obtain ⟨ms, hms, h⟩ := Option.bind_eq_some_iff.1 h
    obtain rfl := Option.some.inj h
    exact List.forall_mem_cons.2 ⟨sorted_toJson? content hv, sorted_entriesToJson? rest hms⟩

theorem sorted_fieldsToJson? (fields : List (String × Shape)) {members : List (String × Json)}
    (h : fieldsToJson? fields = some members) : ∀ m ∈ members, m.2.sorted = m.2 := by
  match fields with
  | [] =>
    obtain rfl := Option.some.inj h
    exact List.forall_mem_nil _
  | (name, content) :: rest =>
    obtain ⟨v, hv, h⟩ := Option.bind_eq_some_iff.1 h
    obtain ⟨ms, hms, h⟩ := Option.bind_eq_some_iff.1 h
    obtain rfl := Option.some.inj h
    exact List.forall_mem_cons.2 ⟨sorted_toJson? content hv, sorted_fieldsToJson? rest hms⟩

end

end Shape

namespace Payload

/-- The payload is written as the value, is missing exactly if the value is null, and is
    zero exactly if the payload of the value is. -/
structure Agrees (p : Payload) (value : Json) : Prop where
  toJson_eq : p.toJson = value
  isNull_iff : p.isNull = true ↔ value = .null
  isZero_eq : p.isZero = (ofJson value).isZero

/-- A payload that agrees with a value is not invalid. -/
theorem Agrees.isInvalid_eq {p : Payload} {value : Json} (h : p.Agrees value) :
    p.isInvalid = false := by
  cases p with
  | invalid => exact absurd (h.isNull_iff.2 h.toJson_eq.symm) nofun
  | _ => rfl

/-- The payload holds the whole number. -/
structure IsInteger (p : Payload) (n : Int) : Prop where
  toJson_eq : p.toJson = .integer n
  isNull_eq : p.isNull = false
  isZero_iff : p.isZero = true ↔ n = 0

theorem isInteger_int64 (m : Int64) : (int64 m).IsInteger m.toInt :=
  ⟨rfl, rfl, by simp [isZero, ← Int64.toInt_inj]⟩

theorem isInteger_nat64 (m : UInt64) : (nat64 m).IsInteger m.toNat :=
  ⟨rfl, rfl, by simp [isZero, ← UInt64.toNat_inj]⟩

/-- A whole number has a JSON value, and the payload that is made of it holds it, or it
    has neither. -/
theorem ofInteger_cases (n : Int) :
    (Shape.integer? n = some (.integer n) ∧ (ofInteger n).IsInteger n) ∨
      (Shape.integer? n = none ∧ ofInteger n = .invalid) := by
  have hmin : Int64.minValue.toInt = -9223372036854775808 := rfl
  have hmax : Int64.maxValue.toInt = 9223372036854775807 := rfl
  have hsize : UInt64.size = 18446744073709551616 := rfl
  by_cases hsigned : Int64.minValue.toInt ≤ n ∧ n ≤ Int64.maxValue.toInt
  · have hpayload : ofInteger n = .int64 (.ofInt n) := if_pos hsigned
    have hn := isInteger_int64 (.ofInt n)
    rw [Int64.toInt_ofInt_of_le (by omega) (by omega), ← hpayload] at hn
    exact .inl ⟨if_pos (by omega), hn⟩
  · by_cases hunsigned : 0 ≤ n ∧ n < UInt64.size
    · have hpayload : ofInteger n = .nat64 (.ofNat n.toNat) :=
        (if_neg hsigned).trans (if_pos hunsigned)
      have hn := isInteger_nat64 (.ofNat n.toNat)
      rw [UInt64.toNat_ofNat_of_lt' (by omega), Int.toNat_of_nonneg hunsigned.1, ← hpayload] at hn
      exact .inl ⟨if_pos (by omega), hn⟩
    · exact .inr ⟨if_neg (by omega), (if_neg hsigned).trans (if_neg hunsigned)⟩

/-- Payloads that hold a whole number are zero together. -/
theorem IsInteger.agrees {p : Payload} {n : Int} (h : p.IsInteger n)
    (hvalue : Shape.integer? n = some (.integer n)) : p.Agrees (.integer n) := by
  have hmade : (ofInteger n).IsInteger n := by
    rcases ofInteger_cases n with ⟨-, hmade⟩ | ⟨hnone, -⟩
    · exact hmade
    · cases hnone.symm.trans hvalue
  refine ⟨h.toJson_eq, by simp [h.isNull_eq], ?_⟩
  rw [Bool.eq_iff_iff, h.isZero_iff, ← hmade.isZero_iff]
  rfl

/-- A whole number of a kind of at most sixty-four bits agrees with its JSON value. -/
theorem IsInteger.agrees_of_bounds {p : Payload} {n : Int} (h : p.IsInteger n)
    (hlow : -9223372036854775808 ≤ n) (hhigh : n < 18446744073709551616) :
    p.Agrees (.integer n) :=
  h.agrees (if_pos ⟨hlow, hhigh⟩)

theorem agrees_int8 (m : Int8) : (int8 m).Agrees (.integer m.toInt) := by
  have hm : (int8 m).IsInteger m.toInt := ⟨rfl, rfl, by simp [isZero, ← Int8.toInt_inj]⟩
  have hlow := m.le_toInt
  have hhigh := m.toInt_lt
  exact hm.agrees_of_bounds (by omega) (by omega)

theorem agrees_int16 (m : Int16) : (int16 m).Agrees (.integer m.toInt) := by
  have hm : (int16 m).IsInteger m.toInt := ⟨rfl, rfl, by simp [isZero, ← Int16.toInt_inj]⟩
  have hlow := m.le_toInt
  have hhigh := m.toInt_lt
  exact hm.agrees_of_bounds (by omega) (by omega)

theorem agrees_int32 (m : Int32) : (int32 m).Agrees (.integer m.toInt) := by
  have hm : (int32 m).IsInteger m.toInt := ⟨rfl, rfl, by simp [isZero, ← Int32.toInt_inj]⟩
  have hlow := m.le_toInt
  have hhigh := m.toInt_lt
  exact hm.agrees_of_bounds (by omega) (by omega)

theorem agrees_int64 (m : Int64) : (int64 m).Agrees (.integer m.toInt) := by
  have hlow := m.le_toInt
  have hhigh := m.toInt_lt
  exact (isInteger_int64 m).agrees_of_bounds (by omega) (by omega)

theorem agrees_nat8 (m : UInt8) : (nat8 m).Agrees (.integer m.toNat) := by
  have hm : (nat8 m).IsInteger m.toNat := ⟨rfl, rfl, by simp [isZero, ← UInt8.toNat_inj]⟩
  have hhigh := m.toNat_lt
  exact hm.agrees_of_bounds (by omega) (by omega)

theorem agrees_nat16 (m : UInt16) : (nat16 m).Agrees (.integer m.toNat) := by
  have hm : (nat16 m).IsInteger m.toNat := ⟨rfl, rfl, by simp [isZero, ← UInt16.toNat_inj]⟩
  have hhigh := m.toNat_lt
  exact hm.agrees_of_bounds (by omega) (by omega)

theorem agrees_nat32 (m : UInt32) : (nat32 m).Agrees (.integer m.toNat) := by
  have hm : (nat32 m).IsInteger m.toNat := ⟨rfl, rfl, by simp [isZero, ← UInt32.toNat_inj]⟩
  have hhigh := m.toNat_lt
  exact hm.agrees_of_bounds (by omega) (by omega)

theorem agrees_nat64 (m : UInt64) : (nat64 m).Agrees (.integer m.toNat) := by
  have hhigh := m.toNat_lt
  exact (isInteger_nat64 m).agrees_of_bounds (by omega) (by omega)

/-- An array or object in order of names is its own payload. -/
theorem agrees_ofJson {value : Json} (hsorted : value.sorted = value)
    (h : (∃ elements, value = .array elements) ∨ ∃ members, value = .object members) :
    (ofJson value).Agrees value := by
  rcases h with ⟨elements, rfl⟩ | ⟨members, rfl⟩
  · refine ⟨?_, ?_, rfl⟩ <;> simp [ofJson, hsorted, toJson, isNull]
  · refine ⟨?_, ?_, rfl⟩ <;> simp [ofJson, hsorted, toJson, isNull]

/-- A natural number has a JSON value, and the payload that is made of it holds it, or it
    has neither. -/
theorem ofWideNat_cases (n : Nat) :
    (Shape.integer? n = some (.integer n) ∧ (ofShape (.wideNat n)).IsInteger n) ∨
      (Shape.integer? n = none ∧ ofShape (.wideNat n) = .invalid) := by
  have hmin : Int64.minValue.toInt = -9223372036854775808 := rfl
  by_cases hn : n < UInt64.size
  · have hpayload : ofShape (.wideNat n) = .nat64 (.ofNat n) := if_pos hn
    have hheld := isInteger_nat64 (.ofNat n)
    rw [UInt64.toNat_ofNat_of_lt' hn, ← hpayload] at hheld
    exact .inl ⟨if_pos (by omega), hheld⟩
  · exact .inr ⟨if_neg (by omega), if_neg hn⟩

/-- A finite number of double precision agrees with its JSON value. -/
theorem agrees_float64 {word : UInt64} {negative : Bool} {mantissa : Nat} {exponent : Int}
    (h : Decimal.Format.double.decode word.toNat = .finite negative mantissa exponent) :
    Shape.double word = .double word ∧ (float64 word).Agrees (.double word) :=
  ⟨by rw [Shape.double, h], rfl, by simp [isNull], rfl⟩

/-- Any other word of double precision is null in JSON and written as such, but it is not
    the word of zero. -/
theorem float64_of_notFinite {word : UInt64}
    (h : ∀ negative mantissa exponent,
      Decimal.Format.double.decode word.toNat ≠ .finite negative mantissa exponent) :
    Shape.double word = .null ∧ (float64 word).toJson.write = Json.null.write ∧
      (float64 word).isZero = false := by
  have hchars : (Json.double word).chars = Json.null.chars ∧ Shape.double word = .null := by
    cases hdecode : Decimal.Format.double.decode word.toNat with
    | finite negative mantissa exponent => exact absurd hdecode (h _ _ _)
    | infinite negative =>
      simp [Shape.double, Json.chars, Json.NumberStyle.chars, Json.doubleStyle, hdecode]
    | nan => simp [Shape.double, Json.chars, Json.NumberStyle.chars, Json.doubleStyle, hdecode]
  refine ⟨hchars.2, congrArg String.ofList hchars.1, Bool.eq_false_iff.2 fun hzero => ?_⟩
  obtain rfl := of_decide_eq_true hzero
  exact h false 0 Decimal.Format.double.minExponent rfl

/-- A shape whose payload is made of its JSON value, which is an array or an object. -/
theorem ofShape_composite {shape : Shape}
    (hsome : ∀ value, shape.toJson? = some value → ofShape shape = ofJson value)
    (hnone : shape.toJson? = none → ofShape shape = .invalid)
    (hvalue : ∀ value, shape.toJson? = some value →
      (∃ elements, value = .array elements) ∨ ∃ members, value = .object members) :
    (shape.toJson? = none ∧ ofShape shape = .invalid) ∨
      ∃ value, shape.toJson? = some value ∧ (ofShape shape).Agrees value := by
  cases hjson : shape.toJson? with
  | none => exact .inl ⟨rfl, hnone hjson⟩
  | some value =>
    refine .inr ⟨value, rfl, ?_⟩
    rw [hsome value hjson]
    exact agrees_ofJson (Shape.sorted_toJson? shape hjson) (hvalue value hjson)

/-- A shape has no JSON value and an invalid payload, or a payload that agrees with its
    value, unless it is a single precision number or one that is not finite. -/
theorem ofShape_cases (shape : Shape) :
    ((shape.toJson? = none ∧ ofShape shape = .invalid) ∨
      ∃ value, shape.toJson? = some value ∧ (ofShape shape).Agrees value) ∨
    (∃ word, shape.core = .float32 word) ∨ shape.IsNotFinite := by
  cases shape with
  | present content => exact ofShape_cases content
  | wrapped content => exact ofShape_cases content
  | bool _ | text _ | char _ | bareVariant _ | absent | unit =>
    exact .inl (.inr ⟨_, rfl, rfl, by simp [ofShape, isNull], rfl⟩)
  | int8 m => exact .inl (.inr ⟨_, rfl, agrees_int8 m⟩)
  | int16 m => exact .inl (.inr ⟨_, rfl, agrees_int16 m⟩)
  | int32 m => exact .inl (.inr ⟨_, rfl, agrees_int32 m⟩)
  | int64 m => exact .inl (.inr ⟨_, rfl, agrees_int64 m⟩)
  | nat8 m => exact .inl (.inr ⟨_, rfl, agrees_nat8 m⟩)
  | nat16 m => exact .inl (.inr ⟨_, rfl, agrees_nat16 m⟩)
  | nat32 m => exact .inl (.inr ⟨_, rfl, agrees_nat32 m⟩)
  | nat64 m => exact .inl (.inr ⟨_, rfl, agrees_nat64 m⟩)
  | wideInt n =>
    rcases ofInteger_cases n with ⟨hjson, hn⟩ | ⟨hjson, hinvalid⟩
    · exact .inl (.inr ⟨_, hjson, hn.agrees hjson⟩)
    · exact .inl (.inl ⟨hjson, hinvalid⟩)
  | wideNat n =>
    rcases ofWideNat_cases n with ⟨hjson, hn⟩ | ⟨hjson, hinvalid⟩
    · exact .inl (.inr ⟨_, hjson, hn.agrees hjson⟩)
    · exact .inl (.inl ⟨hjson, hinvalid⟩)
  | float32 word => exact .inr (.inl ⟨word, rfl⟩)
  | float64 word =>
    cases hdecode : Decimal.Format.double.decode word.toNat with
    | finite negative mantissa exponent =>
      obtain ⟨hjson, hagrees⟩ := agrees_float64 hdecode
      exact .inl (.inr ⟨_, congrArg some hjson, hagrees⟩)
    | _ => exact .inr (.inr ⟨word, rfl, fun _ _ _ h => by cases hdecode.symm.trans h⟩)
  | failing message => exact .inl (.inl ⟨rfl, rfl⟩)
  | octets bytes =>
    refine .inl (ofShape_composite (fun value h => ?_) nofun fun value h => ?_)
    · simp only [ofShape, h]
    · exact .inl ⟨_, (Option.some.inj h).symm⟩
  | sequence elements =>
    refine .inl (ofShape_composite (fun value h => ?_) (fun h => ?_) fun value h => ?_)
    · simp only [ofShape, h]
    · simp only [ofShape, h]
    · obtain ⟨values, -, rfl⟩ := Option.map_eq_some_iff.1 h
      exact .inl ⟨values, rfl⟩
  | variant _ _ | sequenceVariant _ _ | map _ | record _ | recordVariant _ _ =>
    refine .inl (ofShape_composite (fun value h => ?_) (fun h => ?_) fun value h => ?_)
    · simp only [ofShape, h]
    · simp only [ofShape, h]
    · obtain ⟨content, -, rfl⟩ := Option.map_eq_some_iff.1 h
      exact .inr ⟨_, rfl⟩

/-- A single precision number keeps its word behind optional and wrapping layers, and has
    a JSON value. -/
theorem ofShape_float32 {shape : Shape} {word : UInt32} (h : shape.core = .float32 word) :
    ofShape shape = .float32 word ∧ shape.toJson? = some (Shape.double (Decimal.widen word)) := by
  rw [← Shape.ofShape_core, ← Shape.toJson?_core, h]
  exact ⟨rfl, rfl⟩

/-- A double precision number that is not finite keeps its word behind such layers, and its
    JSON value is null. -/
theorem ofShape_of_isNotFinite {shape : Shape} (h : shape.IsNotFinite) :
    shape.toJson? = some .null ∧ (ofShape shape).isInvalid = false ∧
      (ofShape shape).toJson.write = Json.null.write ∧
      (ofShape shape).isNull = false ∧ (ofShape shape).isZero = false := by
  obtain ⟨word, hcore, hword⟩ := h
  obtain ⟨hjson, hwrite, hzero⟩ := float64_of_notFinite hword
  rw [← Shape.ofShape_core, ← Shape.toJson?_core, hcore]
  exact ⟨congrArg some hjson, rfl, hwrite, rfl, hzero⟩

/-- What the payload of a shape has to do with the JSON value of the shape. It is
    invalid exactly if there is no such value. A single precision number behind optional
    and wrapping layers keeps its word. Any other payload is written as the value, it is
    missing exactly if the value is null, and it is zero exactly if the payload of the
    value is, except for a double precision number behind such layers that is not finite:
    as a payload it is not missing and not zero, while its JSON value is null. -/
theorem ofShape_agrees (shape : Shape) :
    ((ofShape shape).isInvalid = true ↔ shape.toJson? = none) ∧
    (∀ word, shape.core = .float32 word → ofShape shape = .float32 word) ∧
    ∀ value, shape.toJson? = some value → (∀ word, shape.core ≠ .float32 word) →
      (ofShape shape).toJson.write = value.write ∧
      (shape.IsNotFinite →
        (ofShape shape).isNull = false ∧ (ofShape shape).isZero = false ∧ value = .null) ∧
      (¬ shape.IsNotFinite →
        ((ofShape shape).isNull = true ↔ value = .null) ∧
        (ofShape shape).isZero = (ofJson value).isZero) := by
  have hcases := ofShape_cases shape
  refine ⟨?_, fun word hword => (ofShape_float32 hword).1, fun value hvalue hsingle => ?_⟩
  · rcases hcases with (⟨hjson, hinvalid⟩ | ⟨value, hjson, hagrees⟩) | ⟨word, hword⟩ | hnot
    · exact iff_of_true (by rw [hinvalid]; rfl) hjson
    · exact iff_of_false (by simp [hagrees.isInvalid_eq]) (by simp [hjson])
    · obtain ⟨hpayload, hjson⟩ := ofShape_float32 hword
      exact iff_of_false (by simp [hpayload, isInvalid]) (by simp [hjson])
    · obtain ⟨hjson, hvalid, -⟩ := ofShape_of_isNotFinite hnot
      exact iff_of_false (by simp [hvalid]) (by simp [hjson])
  · by_cases hnot : shape.IsNotFinite
    · obtain ⟨hjson, -, hwrite, hnull, hzero⟩ := ofShape_of_isNotFinite hnot
      obtain rfl := Option.some.inj (hvalue.symm.trans hjson)
      exact ⟨hwrite, fun _ => ⟨hnull, hzero, rfl⟩, fun h => absurd hnot h⟩
    · rcases hcases with (⟨hjson, -⟩ | ⟨value', hjson, hagrees⟩) | ⟨word, hword⟩ | h
      · cases hvalue.symm.trans hjson
      · obtain rfl := Option.some.inj (hvalue.symm.trans hjson)
        exact ⟨congrArg Json.write hagrees.toJson_eq, fun h => absurd h hnot,
          fun _ => ⟨hagrees.isNull_iff, hagrees.isZero_eq⟩⟩
      · exact absurd hword (hsingle word)
      · exact absurd h hnot

/-- A record with a name that occurs twice, a number too wide inside of a sequence, and
    layers around infinity and around a single precision number. -/
theorem ofShape_agrees_layers :
    let doubled : Shape := .record [("b", .absent), ("a", .wideInt (-1)), ("b", .sequence [])]
    let tooWide : Shape := .sequence [.present (.wideNat 18446744073709551616)]
    let infinity : Shape := .present (.wrapped (.float64 0x7ff0000000000000))
    let single : Shape := .wrapped (.present (.float32 0x3f800000))
    let value : Json := .object [("a", .integer (-1)), ("b", .array [])]
    (doubled.toJson? = some value ∧ (∀ word, doubled.core ≠ .float32 word) ∧
      ¬ doubled.IsNotFinite ∧ (ofShape doubled).toJson.write = value.write ∧
      ((ofShape doubled).isNull = true ↔ value = .null) ∧
      (ofShape doubled).isZero = (ofJson value).isZero) ∧
    (tooWide.toJson? = none ∧ (ofShape tooWide).isInvalid = true) ∧
    (infinity.toJson? = some .null ∧ infinity.IsNotFinite ∧
      (ofShape infinity).isNull = false ∧ (ofShape infinity).isZero = false) ∧
    (single.core = .float32 0x3f800000 ∧ ofShape single = .float32 0x3f800000) := by
  intro doubled tooWide infinity single value
  have hdoubled : doubled.toJson? = some value := rfl
  have hfinite : ¬ doubled.IsNotFinite := nofun
  have hinfinity : infinity.IsNotFinite := ⟨_, rfl, nofun⟩
  obtain ⟨hwrite, -, hagrees⟩ := (ofShape_agrees doubled).2.2 value hdoubled nofun
  obtain ⟨-, hnull, -⟩ := (ofShape_agrees infinity).2.2 .null rfl nofun
  exact ⟨⟨hdoubled, nofun, hfinite, hwrite, hagrees hfinite⟩,
    ⟨rfl, (ofShape_agrees tooWide).1.2 rfl⟩,
    ⟨rfl, hinfinity, (hnull hinfinity).1, (hnull hinfinity).2.1⟩,
    rfl, (ofShape_agrees single).2.1 _ rfl⟩

end Payload

end Logbook
