import AgentFlow.Number.Single
import AgentFlow.Number.Exponential

/-!
# Scales of scores

Scores are numbers of a scale: single precision when the program runs, and any other numbers with
the same operations when its rules are reasoned about.
-/

namespace AgentFlow

/-- What the rules of scoring need of a number. -/
class Scale (α : Type) where
  zero : α
  one : α
  add : α → α → α
  mul : α → α → α
  /-- The lesser of two scores. -/
  min : α → α → α
  lt : α → α → Bool
  le : α → α → Bool
  /-- Whether the first score comes before the second or with it, in a total order of all scores. -/
  orderLe : α → α → Bool
  /-- So many hundredths. -/
  hundredths : Nat → α
  /-- The text of a score with two places. -/
  text : α → String

namespace Scale

/-- The scale of single precision.  Its total order puts `-0.0` below `0.0`. -/
instance single : Scale Float32 where
  zero := 0
  one := 1
  add x y := x + y
  mul x y := x * y
  min x y := if y < x then y else x
  lt x y := x < y
  le x y := x ≤ y
  orderLe x y := Number.Single.key x ≤ Number.Single.key y
  hundredths n := Float32.ofScientific n true 2
  text := Number.Single.hundredths

end Scale

/-- The sum of weights that reaches about 63 hundredths of certainty. -/
def saturation : Float32 := 2.5

/-- A sum of weights as a score: nothing for no evidence, nearing one for a lot of it. -/
def normalize (raw : Float32) : Float32 :=
  if raw ≤ 0 then 0 else 1 - Number.expSingle (-raw / saturation)

end AgentFlow
