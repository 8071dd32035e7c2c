/-!
# Decimal text of binary numbers

A finite binary floating-point number is `significand · 2 ^ exponent`.  This file writes it in two
ways, both by exact arithmetic on natural numbers.

* `Magnitude.shortest`: the fewest decimal digits that still read back as the number, and of those
  the nearest to it.
* `Magnitude.fixed`: the digits up to a given place, a half going to the even neighbour.
-/

namespace AgentFlow.Number

/-- The absolute value of a finite binary floating-point number. -/
structure Magnitude where
  significand : Nat
  exponent : Int
  /-- Whether the next number below is only half as far away as the next one above. -/
  narrowBelow : Bool

structure Decimal where
  digits : Nat
  exponent : Int
  deriving DecidableEq

/-! ## Shortest digits -/

/-- The reals that round to a magnitude, scaled to natural numbers: they reach from `low / scale` to
`high / scale`, with the ends if `closed`, around `mid / scale`. -/
structure Basin where
  low : Nat
  mid : Nat
  high : Nat
  scale : Nat
  closed : Bool

/-- The reals nearer to `x` than to any other number of its format. -/
def Magnitude.basin (x : Magnitude) : Basin :=
  let up := Nat.pow 2 (x.exponent - 2).toNat
  let down := Nat.pow 2 (2 - x.exponent).toNat
  let m := 4 * x.significand
  { low := (m - (if x.narrowBelow then 1 else 2)) * up
    mid := m * up
    high := (m + 2) * up
    scale := down
    closed := x.significand % 2 == 0 }

/-- The multiple of `10 ^ place` below or at the middle, how the basin compares with a multiple. -/
structure Grid where
  /-- `10 ^ place` if `place` is not negative, and 1 otherwise. -/
  unit : Nat
  /-- `10 ^ (-place)` if `place` is negative, and 1 otherwise. -/
  zoom : Nat

def Grid.at (place : Int) : Grid := ⟨Nat.pow 10 place.toNat, Nat.pow 10 (-place).toNat⟩

/-- Whether the `k`-th multiple of the grid lies in the basin. -/
def Grid.hits (g : Grid) (b : Basin) (k : Nat) : Bool :=
  let point := k * g.unit * b.scale
  if b.closed then b.low * g.zoom ≤ point && point ≤ b.high * g.zoom
  else b.low * g.zoom < point && point < b.high * g.zoom

/-- The multiple of the grid that lies in the basin nearest to its middle, if one does.  Only the
two neighbours of the middle can be it. -/
def Grid.nearest? (g : Grid) (b : Basin) : Option Nat :=
  let step := g.unit * b.scale
  let below := b.mid * g.zoom / step
  let left := b.mid * g.zoom - below * step
  let right := (below + 1) * step - b.mid * g.zoom
  match below != 0 && g.hits b below, g.hits b (below + 1) with
  | true, true =>
    some (if left < right || (left == right && below % 2 == 0) then below else below + 1)
  | true, false => some below
  | false, true => some (below + 1)
  | false, false => none

/-- The hit on the coarsest grid from `place` downward. -/
def Basin.search (b : Basin) : (fuel : Nat) → (place : Int) → Decimal
  | 0, place => ⟨b.mid * (Grid.at place).zoom / ((Grid.at place).unit * b.scale), place⟩
  | fuel + 1, place =>
    match (Grid.at place).nearest? b with
    | some k => ⟨k, place⟩
    | none => b.search fuel (place - 1)

def bitLength (n : Nat) : Nat := if n = 0 then 0 else n.log2 + 1

/-- The fewest digits that read back as `x`, the nearest to `x` of those. -/
def Magnitude.shortest (x : Magnitude) : Decimal :=
  if x.significand = 0 then ⟨0, 0⟩
  else x.basin.search 24 ((x.exponent + bitLength x.significand) * 30103 / 100000 + 2)

/-! ## Fixed places -/

/-- The quotient rounded to the nearest natural number, a half to the even one. -/
def roundDiv (num den : Nat) : Nat :=
  let q := num / den
  let r := num % den
  if 2 * r < den || (2 * r == den && q % 2 == 0) then q else q + 1

/-- The number of units of the last place in `x` written with `places` places. -/
def Magnitude.unitsAt (x : Magnitude) (places : Nat) : Nat :=
  roundDiv (x.significand * Nat.pow 10 places * Nat.pow 2 x.exponent.toNat)
    (Nat.pow 2 (-x.exponent).toNat)

def zeros (n : Nat) : List Char := List.replicate n '0'

def digitsOf (n : Nat) : List Char := (toString n).toList

def pointBefore (places : Nat) (digits : List Char) : List Char :=
  let padded := zeros (places + 1 - digits.length) ++ digits
  if places = 0 then padded
  else padded.take (padded.length - places) ++ '.' :: padded.drop (padded.length - places)

def Magnitude.fixed (x : Magnitude) (places : Nat) : List Char :=
  pointBefore places (digitsOf (x.unitsAt places))

/-! ## Positional and scientific text -/

/-- The decimal written without an exponent; a whole number has no point. -/
def Decimal.positional (d : Decimal) : List Char :=
  if 0 ≤ d.exponent then digitsOf d.digits ++ (if d.digits = 0 then [] else zeros d.exponent.toNat)
  else pointBefore (-d.exponent).toNat (digitsOf d.digits)

def Decimal.pointed (d : Decimal) : List Char :=
  if 0 ≤ d.exponent then d.positional ++ ['.', '0'] else d.positional

/-- The decimal written with one digit before the point and an exponent of ten. -/
def Decimal.scientific (d : Decimal) : List Char :=
  let digits := digitsOf d.digits
  let power := d.exponent + digits.length - 1
  let head :=
    match digits with
    | [] => []
    | [c] => [c]
    | c :: rest => c :: '.' :: rest
  head ++ 'e' :: (toString power).toList

/-- When a number is written without an exponent: its leading digit stands at a power of ten between
the two bounds. -/
structure PointRange where
  lowest : Int
  highest : Int

/-- The decimal with a point inside the range and with an exponent outside. -/
def Decimal.render (d : Decimal) (range : PointRange) : List Char :=
  let power := d.exponent + (digitsOf d.digits).length - 1
  if d.digits = 0 || (range.lowest ≤ power && power ≤ range.highest) then d.pointed
  else d.scientific

end AgentFlow.Number
