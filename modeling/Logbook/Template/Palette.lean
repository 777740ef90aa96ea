/-!
# The terminal palette

The palette of a terminal has 256 entries: sixteen named colors, a cube of six
steps in each of the three channels, and a ramp of twenty-four grays.
`nearestEntry` is an entry of the cube or the ramp for a color of three octets.
-/

namespace Logbook.Palette

/-- A color of three channels. -/
structure Rgb where
  red : UInt8
  green : UInt8
  blue : UInt8
  deriving DecidableEq, Repr

/-- The names of the first sixteen entries, in their order. -/
def names : List String :=
  ["black", "red", "green", "yellow", "blue", "magenta", "cyan", "white", "brightblack",
    "brightred", "brightgreen", "brightyellow", "brightblue", "brightmagenta", "brightcyan",
    "brightwhite"]

/-- The entry of a name. -/
def namedIndex? (name : String) : Option Nat := names.findIdx? (· = name)

/-- The intensities of the steps of the cube. -/
def cubeIntensities : List Nat := [0, 95, 135, 175, 215, 255]

def cubeIntensity (step : Nat) : Nat := cubeIntensities.getD step 0

def rampIntensity (step : Nat) : Nat := 8 + 10 * step

/-- How far apart two numbers are. -/
def gap (a b : Nat) : Nat := (a - b) + (b - a)

/-- A number times itself. -/
def square (n : Nat) : Nat := n * n

/-- The squared distance of a color from three intensities. -/
def distance (color : Rgb) (red green blue : Nat) : Nat :=
  square (gap color.red.toNat red) + square (gap color.green.toNat green) +
    square (gap color.blue.toNat blue)

/-- The first of the values with the least cost, from a value that comes before
    them. -/
def leastCost (cost : Nat → Nat) : Nat → List Nat → Nat
  | best, [] => best
  | best, x :: xs => leastCost cost (if cost x < cost best then x else best) xs

/-- The step of the cube whose intensity is nearest; of two, the darker. -/
def nearestCubeStep (channel : UInt8) : Nat :=
  leastCost (fun step => gap (cubeIntensity step) channel.toNat) 0 [1, 2, 3, 4, 5]

/-- The step of the ramp below the average of the three channels. -/
def rampStep (color : Rgb) : Nat :=
  min ((((color.red.toNat + color.green.toNat + color.blue.toNat) / 3) - 3) / 10) 23

/-- The entry of the cube or the ramp for a color. The ramp is taken only where
    it comes nearer than the cube. -/
def nearestEntry (color : Rgb) : Nat :=
  let red := nearestCubeStep color.red
  let green := nearestCubeStep color.green
  let blue := nearestCubeStep color.blue
  let gray := rampStep color
  if distance color (rampIntensity gray) (rampIntensity gray) (rampIntensity gray) <
      distance color (cubeIntensity red) (cubeIntensity green) (cubeIntensity blue) then 232 + gray
  else 16 + 36 * red + 6 * green + blue

end Logbook.Palette
