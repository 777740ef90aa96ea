import Mathlib.Tactic.Linarith
import Mathlib.Tactic.Ring
import Logbook.Template.Palette

/-!
# The nearest entry of the palette

`Palette.Entry` lists the entries of the cube and of the ramp with their
intensities. The nearest intensity is taken for each channel of the cube, and the
step of the ramp is told by the average alone, without a search for either.
`nearestEntry_optimal` says that none of all entries comes nearer, and that octets
and words hold every number on the way: `Words.nearestEntry` computes with them.
-/

namespace Logbook.Palette

/-- The entries of the cube and of the ramp, with the intensities of the channels. -/
inductive Entry : Nat → Nat → Nat → Nat → Prop where
  | cube {i j k : Nat} : i < 6 → j < 6 → k < 6 →
      Entry (16 + 36 * i + 6 * j + k) (cubeIntensity i) (cubeIntensity j) (cubeIntensity k)
  | ramp {s : Nat} : s < 24 →
      Entry (232 + s) (rampIntensity s) (rampIntensity s) (rampIntensity s)

/-- The squared distance of a color from three intensities as points of space. -/
def squaredDistance (color : Rgb) (red green blue : Nat) : Int :=
  (color.red.toNat - red) * (color.red.toNat - red) +
    (color.green.toNat - green) * (color.green.toNat - green) +
    (color.blue.toNat - blue) * (color.blue.toNat - blue)

theorem Entry.bounds {index red green blue : Nat} (h : Entry index red green blue) :
    16 ≤ index ∧ index ≤ 255 := by
  cases h <;> omega

theorem Entry.unique {index red green blue red' green' blue' : Nat}
    (h : Entry index red green blue) (h' : Entry index red' green' blue') :
    red = red' ∧ green = green' ∧ blue = blue' := by
  generalize hindex : index = other at h'
  cases h with
  | @cube i j k hi hj hk =>
    cases h' with
    | @cube i' j' k' hi' hj' hk' =>
      obtain ⟨rfl, rfl, rfl⟩ : i = i' ∧ j = j' ∧ k = k' := by omega
      exact ⟨rfl, rfl, rfl⟩
    | ramp hs => omega
  | @ramp s hs =>
    cases h' with
    | cube hi hj hk => omega
    | @ramp s' hs' =>
      obtain rfl : s = s' := by omega
      exact ⟨rfl, rfl, rfl⟩

theorem gap_le_of_le {a b : Nat} (h : a ≤ b) : gap a b = b - a := by
  rw [gap, Nat.sub_eq_zero_of_le h, Nat.zero_add]

theorem gap_comm (a b : Nat) : gap a b = gap b a := Nat.add_comm _ _

theorem square_gap (a b : Nat) : (square (gap a b) : Int) = (a - b) * (a - b) := by
  rcases Nat.le_total a b with h | h
  · rw [square, gap_le_of_le h, Int.natCast_mul, Int.natCast_sub h]
    ring
  · rw [square, gap_comm, gap_le_of_le h, Int.natCast_mul, Int.natCast_sub h]

theorem distance_eq (color : Rgb) (red green blue : Nat) :
    (distance color red green blue : Int) = squaredDistance color red green blue := by
  rw [distance, Int.natCast_add, Int.natCast_add, square_gap, square_gap, square_gap]
  rfl

theorem square_le_square {a b : Nat} (h : a ≤ b) : square a ≤ square b := Nat.mul_le_mul h h

section LeastCost

variable (cost : Nat → Nat)

theorem leastCost_mem (best : Nat) (xs : List Nat) : leastCost cost best xs ∈ best :: xs := by
  induction xs generalizing best with
  | nil => exact List.mem_cons_self
  | cons x xs ih =>
    rw [leastCost]
    by_cases hx : cost x < cost best
    · rw [if_pos hx]
      exact List.mem_cons_of_mem best (ih x)
    · rw [if_neg hx]
      rcases List.mem_cons.1 (ih best) with h | h
      · exact List.mem_cons.2 (.inl h)
      · exact List.mem_cons_of_mem best (List.mem_cons_of_mem x h)

theorem leastCost_le (best : Nat) (xs : List Nat) :
    ∀ x ∈ best :: xs, cost (leastCost cost best xs) ≤ cost x := by
  induction xs generalizing best with
  | nil => simp [leastCost]
  | cons y xs ih =>
    rw [leastCost]
    by_cases hy : cost y < cost best
    · rw [if_pos hy]
      have hbest := ih y y List.mem_cons_self
      grind
    · rw [if_neg hy]
      have hbest := ih best best List.mem_cons_self
      grind

end LeastCost

theorem nearestCubeStep_lt (channel : UInt8) : nearestCubeStep channel < 6 := by
  have hmem := leastCost_mem (fun step => gap (cubeIntensity step) channel.toNat) 0 [1, 2, 3, 4, 5]
  rw [nearestCubeStep]
  simp only [List.mem_cons, List.not_mem_nil, or_false] at hmem
  omega

theorem nearestCubeStep_le (channel : UInt8) {step : Nat} (h : step < 6) :
    gap channel.toNat (cubeIntensity (nearestCubeStep channel)) ≤
      gap channel.toNat (cubeIntensity step) := by
  have hmem : step ∈ [0, 1, 2, 3, 4, 5] := by
    simp only [List.mem_cons, List.not_mem_nil, or_false]
    omega
  rw [gap_comm, gap_comm channel.toNat]
  exact leastCost_le (fun step => gap (cubeIntensity step) channel.toNat) 0 _ step hmem

/-- The channels of the cube are independent, so the nearest steps make its nearest
    entry. -/
theorem cube_distance_le (color : Rgb) {i j k : Nat} (hi : i < 6) (hj : j < 6) (hk : k < 6) :
    distance color (cubeIntensity (nearestCubeStep color.red))
        (cubeIntensity (nearestCubeStep color.green))
        (cubeIntensity (nearestCubeStep color.blue)) ≤
      distance color (cubeIntensity i) (cubeIntensity j) (cubeIntensity k) :=
  Nat.add_le_add
    (Nat.add_le_add (square_le_square (nearestCubeStep_le color.red hi))
      (square_le_square (nearestCubeStep_le color.green hj)))
    (square_le_square (nearestCubeStep_le color.blue hk))

theorem rampStep_lt (color : Rgb) : rampStep color < 24 := by
  rw [rampStep]
  omega

/-- How much farther one gray is than another, told by the sum of the channels. -/
theorem squaredDistance_gray_sub (color : Rgb) (near far : Nat) :
    squaredDistance color far far far - squaredDistance color near near near =
      (far - near) * (3 * (far + near) -
        2 * (color.red.toNat + color.green.toNat + color.blue.toNat)) := by
  unfold squaredDistance
  ring

/-- Rounding the average down loses nothing: the gray of the step is nearest. -/
theorem ramp_distance_le (color : Rgb) {s : Nat} (hs : s < 24) :
    distance color (rampIntensity (rampStep color)) (rampIntensity (rampStep color))
        (rampIntensity (rampStep color)) ≤
      distance color (rampIntensity s) (rampIntensity s) (rampIntensity s) := by
  set near := rampIntensity (rampStep color) with hnear
  set far := rampIntensity s with hfar
  -- the middle between two grays is at most, or at least, the average
  have hmiddle : (far ≤ near ∧
        3 * (far + near) ≤ 2 * (color.red.toNat + color.green.toNat + color.blue.toNat)) ∨
      (near ≤ far ∧
        2 * (color.red.toNat + color.green.toNat + color.blue.toNat) ≤ 3 * (far + near)) := by
    rw [hnear, hfar, rampIntensity, rampIntensity, rampStep]
    omega
  have hfarther := squaredDistance_gray_sub color near far
  have hsign : (0 : Int) ≤ (far - near) * (3 * (far + near) -
      2 * (color.red.toNat + color.green.toNat + color.blue.toNat)) := by
    rcases hmiddle with ⟨hle, hsum⟩ | ⟨hle, hsum⟩
    · exact mul_nonneg_of_nonpos_of_nonpos (by omega) (by omega)
    · exact mul_nonneg (by omega) (by omega)
  have hle : (distance color near near near : Int) ≤ distance color far far far := by
    rw [distance_eq, distance_eq]
    linarith
  exact_mod_cast hle

/-- The entry is the nearer one of the two that are considered. -/
theorem entry_nearestEntry (color : Rgb) :
    ∃ red green blue, Entry (nearestEntry color) red green blue ∧
      distance color red green blue =
        min (distance color (rampIntensity (rampStep color)) (rampIntensity (rampStep color))
            (rampIntensity (rampStep color)))
          (distance color (cubeIntensity (nearestCubeStep color.red))
            (cubeIntensity (nearestCubeStep color.green))
            (cubeIntensity (nearestCubeStep color.blue))) := by
  simp only [nearestEntry]
  split
  · next hlt => exact ⟨_, _, _, .ramp (rampStep_lt color), (Nat.min_eq_left hlt.le).symm⟩
  · next hle =>
    exact ⟨_, _, _, .cube (nearestCubeStep_lt _) (nearestCubeStep_lt _) (nearestCubeStep_lt _),
      (Nat.min_eq_right (Nat.le_of_not_lt hle)).symm⟩

theorem nearestEntry_le (color : Rgb) : nearestEntry color ≤ 255 := by
  obtain ⟨_, _, _, hentry, -⟩ := entry_nearestEntry color
  exact hentry.bounds.2

/-! ### In octets and words -/

namespace Words

/-- A number as an octet, and the largest octet where it is none. -/
def octet (n : UInt64) : UInt8 := if n < 256 then n.toUInt8 else 255

def gap (a b : UInt8) : UInt8 := if a ≤ b then b - a else a - b

def square (n : UInt8) : UInt32 := n.toUInt32 * n.toUInt32

def distance (color : Rgb) (red green blue : UInt8) : UInt32 :=
  square (gap color.red red) + square (gap color.green green) + square (gap color.blue blue)

def cubeIntensity (step : Nat) : UInt8 := .ofNat (Palette.cubeIntensity step)

def nearestCubeStep (channel : UInt8) : UInt64 :=
  .ofNat (leastCost (fun step => (gap (cubeIntensity step) channel).toNat) 0 [1, 2, 3, 4, 5])

def rampStep (color : Rgb) : UInt32 :=
  let average := (color.red.toUInt32 + color.green.toUInt32 + color.blue.toUInt32) / 3
  let step := (if 3 ≤ average then average - 3 else 0) / 10
  if step ≤ 23 then step else 23

def rampIntensity (step : UInt32) : UInt8 := octet (8 + step * 10).toUInt64

/-- The nearest entry, computed with numbers of a fixed width. -/
def nearestEntry (color : Rgb) : UInt8 :=
  let red := nearestCubeStep color.red
  let green := nearestCubeStep color.green
  let blue := nearestCubeStep color.blue
  let gray := rampIntensity (rampStep color)
  octet
    (if distance color gray gray gray <
        distance color (cubeIntensity red.toNat) (cubeIntensity green.toNat)
          (cubeIntensity blue.toNat) then
      232 + (rampStep color).toUInt64
    else 16 + 36 * red + 6 * green + blue)

theorem toNat_octet {n : UInt64} (h : n.toNat < 256) : (octet n).toNat = n.toNat := by
  have hlt : n < 256 := by rw [UInt64.lt_iff_toNat_lt]; exact h
  rw [octet, if_pos hlt, UInt64.toNat_toUInt8]
  omega

theorem toNat_gap (a b : UInt8) : (gap a b).toNat = Palette.gap a.toNat b.toNat := by
  unfold gap
  split
  · next h =>
    have hle : a.toNat ≤ b.toNat := UInt8.le_iff_toNat_le.1 h
    rw [UInt8.toNat_sub_of_le _ _ h, gap_le_of_le hle]
  · next h =>
    have hle : b.toNat ≤ a.toNat := by
      rw [UInt8.le_iff_toNat_le] at h
      omega
    rw [UInt8.toNat_sub_of_le _ _ (UInt8.le_iff_toNat_le.2 hle), gap_comm, gap_le_of_le hle]

theorem toNat_square (n : UInt8) :
    (square n).toNat = Palette.square n.toNat ∧ (square n).toNat ≤ 255 * 255 := by
  have hle : n.toNat * n.toNat ≤ 255 * 255 :=
    Nat.mul_le_mul (Nat.le_of_lt_succ n.toNat_lt) (Nat.le_of_lt_succ n.toNat_lt)
  have hsquare : (square n).toNat = n.toNat * n.toNat := by
    rw [square, UInt32.toNat_mul, UInt8.toNat_toUInt32]
    exact Nat.mod_eq_of_lt (by omega)
  exact ⟨hsquare, hsquare ▸ hle⟩

theorem toNat_distance (color : Rgb) (red green blue : UInt8) :
    (distance color red green blue).toNat =
      Palette.distance color red.toNat green.toNat blue.toNat := by
  obtain ⟨hred, hred'⟩ := toNat_square (gap color.red red)
  obtain ⟨hgreen, hgreen'⟩ := toNat_square (gap color.green green)
  obtain ⟨hblue, hblue'⟩ := toNat_square (gap color.blue blue)
  rw [distance, UInt32.toNat_add, UInt32.toNat_add, Palette.distance, ← toNat_gap, ← toNat_gap,
    ← toNat_gap, ← hred, ← hgreen, ← hblue]
  omega

theorem toNat_cubeIntensity (step : Nat) :
    (cubeIntensity step).toNat = Palette.cubeIntensity step := by
  have hlt : Palette.cubeIntensity step < 256 := by
    by_cases hstep : step < 6
    · exact (by decide : ∀ step < 6, Palette.cubeIntensity step < 256) step hstep
    · rw [Palette.cubeIntensity, List.getD_eq_getElem?_getD,
        List.getElem?_eq_none (Nat.le_of_not_lt hstep)]
      decide
  rw [cubeIntensity, UInt8.toNat_ofNat']
  omega

theorem toNat_nearestCubeStep (channel : UInt8) :
    (nearestCubeStep channel).toNat = Palette.nearestCubeStep channel := by
  have hlt := nearestCubeStep_lt channel
  rw [nearestCubeStep, UInt64.toNat_ofNat']
  simp only [toNat_gap, toNat_cubeIntensity]
  rw [← Palette.nearestCubeStep]
  omega

theorem toNat_average (color : Rgb) :
    ((color.red.toUInt32 + color.green.toUInt32 + color.blue.toUInt32) / 3).toNat =
      (color.red.toNat + color.green.toNat + color.blue.toNat) / 3 := by
  have hred := color.red.toNat_lt
  have hgreen := color.green.toNat_lt
  have hblue := color.blue.toNat_lt
  rw [UInt32.toNat_div, UInt32.toNat_add, UInt32.toNat_add, UInt8.toNat_toUInt32,
    UInt8.toNat_toUInt32, UInt8.toNat_toUInt32]
  change _ / 3 = _ / 3
  omega

theorem toNat_rampStep (color : Rgb) : (rampStep color).toNat = Palette.rampStep color := by
  have haverage := toNat_average color
  simp only [rampStep, Palette.rampStep]
  generalize (color.red.toUInt32 + color.green.toUInt32 + color.blue.toUInt32) / 3 = average
    at haverage ⊢
  rw [← haverage]
  have hrest : (if 3 ≤ average then average - 3 else 0).toNat = average.toNat - 3 := by
    split
    · next h => exact UInt32.toNat_sub_of_le _ _ h
    · next h =>
      rw [UInt32.le_iff_toNat_le] at h
      change ¬ 3 ≤ average.toNat at h
      exact (Nat.sub_eq_zero_of_le (by omega)).symm
  have hstep :
      ((if 3 ≤ average then average - 3 else 0) / 10).toNat = (average.toNat - 3) / 10 := by
    rw [UInt32.toNat_div, hrest]
    rfl
  generalize (if 3 ≤ average then average - 3 else 0) / 10 = step at hstep ⊢
  split
  · next h =>
    rw [UInt32.le_iff_toNat_le, hstep] at h
    rw [hstep]
    exact (Nat.min_eq_left h).symm
  · next h =>
    rw [UInt32.le_iff_toNat_le, hstep] at h
    exact (Nat.min_eq_right (Nat.le_of_not_le h)).symm

theorem toNat_rampIntensity (color : Rgb) :
    (rampIntensity (rampStep color)).toNat = Palette.rampIntensity (Palette.rampStep color) := by
  have hlt := rampStep_lt color
  have hintensity : (8 + rampStep color * 10).toUInt64.toNat =
      Palette.rampIntensity (Palette.rampStep color) := by
    rw [UInt32.toNat_toUInt64, UInt32.toNat_add, UInt32.toNat_mul, toNat_rampStep,
      Palette.rampIntensity]
    change (8 + Palette.rampStep color * 10 % _) % _ = _
    omega
  rw [rampIntensity, toNat_octet, hintensity]
  rw [hintensity, Palette.rampIntensity]
  omega

/-- Nothing is cut off and no octet is full before its number is. -/
theorem toNat_nearestEntry (color : Rgb) :
    (nearestEntry color).toNat = Palette.nearestEntry color := by
  have hramp := rampStep_lt color
  have hred := nearestCubeStep_lt color.red
  have hgreen := nearestCubeStep_lt color.green
  have hblue := nearestCubeStep_lt color.blue
  have hrampEntry : (232 + (rampStep color).toUInt64).toNat = 232 + Palette.rampStep color := by
    rw [UInt64.toNat_add, UInt32.toNat_toUInt64, toNat_rampStep]
    change (232 + _) % _ = _
    omega
  have hcubeEntry : (16 + 36 * nearestCubeStep color.red + 6 * nearestCubeStep color.green +
      nearestCubeStep color.blue).toNat = 16 + 36 * Palette.nearestCubeStep color.red +
        6 * Palette.nearestCubeStep color.green + Palette.nearestCubeStep color.blue := by
    rw [UInt64.toNat_add, UInt64.toNat_add, UInt64.toNat_add, UInt64.toNat_mul, UInt64.toNat_mul,
      toNat_nearestCubeStep, toNat_nearestCubeStep, toNat_nearestCubeStep]
    change (((16 + 36 * _ % _) % _ + 6 * _ % _) % _ + _) % _ = _
    omega
  simp only [nearestEntry, Palette.nearestEntry, UInt32.lt_iff_toNat_lt, toNat_distance,
    toNat_rampIntensity, toNat_cubeIntensity, toNat_nearestCubeStep]
  split
  · rw [toNat_octet, hrampEntry]
    omega
  · rw [toNat_octet, hcubeEntry]
    omega

end Words

/-- The number that is computed for a color is that of an entry of the cube or the ramp,
    and no entry of them comes nearer to the color. Words of a fixed width hold every
    number on the way: the gray of the ramp, the distances and the entry. -/
theorem nearestEntry_optimal (color : Rgb) :
    (16 ≤ nearestEntry color ∧ nearestEntry color ≤ 255) ∧
    (∃ red green blue, Entry (nearestEntry color) red green blue) ∧
    (∀ red green blue, Entry (nearestEntry color) red green blue →
      ∀ index red' green' blue', Entry index red' green' blue' →
        squaredDistance color red green blue ≤ squaredDistance color red' green' blue') ∧
    (Words.rampIntensity (Words.rampStep color)).toNat = rampIntensity (rampStep color) ∧
    (∀ red green blue : UInt8, (Words.distance color red green blue).toNat =
      distance color red.toNat green.toNat blue.toNat) ∧
    (Words.nearestEntry color).toNat = nearestEntry color := by
  obtain ⟨red, green, blue, hentry, hmin⟩ := entry_nearestEntry color
  refine ⟨hentry.bounds, ⟨red, green, blue, hentry⟩, ?_, Words.toNat_rampIntensity color,
    Words.toNat_distance color, Words.toNat_nearestEntry color⟩
  intro red₁ green₁ blue₁ hentry₁ index red' green' blue' hentry'
  obtain ⟨rfl, rfl, rfl⟩ := hentry.unique hentry₁
  have hle : distance color red green blue ≤ distance color red' green' blue' := by
    rw [hmin]
    cases hentry' with
    | cube hi hj hk => exact (Nat.min_le_right _ _).trans (cube_distance_le color hi hj hk)
    | ramp hs => exact (Nat.min_le_left _ _).trans (ramp_distance_le color hs)
  rw [← distance_eq, ← distance_eq]
  exact_mod_cast hle

/-- An average that is rounded down to the last one of the darkest gray. -/
theorem nearestEntry_optimal_boundary :
    nearestEntry ⟨13, 12, 13⟩ = 232 ∧ Entry 232 8 8 8 ∧ Entry 233 18 18 18 ∧
      squaredDistance ⟨13, 12, 13⟩ 8 8 8 ≤ squaredDistance ⟨13, 12, 13⟩ 18 18 18 ∧
      Words.nearestEntry ⟨13, 12, 13⟩ = 232 := by
  have hnearest : nearestEntry ⟨13, 12, 13⟩ = 232 := by decide
  have hdarkest : Entry 232 8 8 8 := .ramp (by decide : 0 < 24)
  have hnext : Entry 233 18 18 18 := .ramp (by decide : 1 < 24)
  obtain ⟨-, -, hoptimal, -, -, hwords⟩ := nearestEntry_optimal ⟨13, 12, 13⟩
  rw [hnearest] at hoptimal hwords
  exact ⟨hnearest, hdarkest, hnext, hoptimal _ _ _ hdarkest _ _ _ _ hnext,
    UInt8.toNat_inj.1 hwords⟩

end Logbook.Palette
