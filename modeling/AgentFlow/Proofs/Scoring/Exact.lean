import AgentFlow.Scoring.Scale
import Mathlib.Algebra.Order.Field.Rat

/-!
# Exact scores

The rules of scoring are meant for numbers, and single precision rounds.  A scale is exact if its
scores are numbers of an ordered field and nothing is rounded.

* `Scale.Exact`: the operations of a scale are those of the numbers that its scores stand for.
* `Scale.exact_rational`: rational scores are exact.
-/

namespace AgentFlow

open Number

/-- Every score stands for a number, and the operations of the scale are those of the numbers. -/
structure Scale.Exact {α K : Type} [Scale α] [Field K] [LinearOrder K] (value : α → K) : Prop where
  zero : value Scale.zero = 0
  one : value Scale.one = 1
  add : ∀ x y, value (Scale.add x y) = value x + value y
  mul : ∀ x y, value (Scale.mul x y) = value x * value y
  min : ∀ x y, value (Scale.min x y) = Min.min (value x) (value y)
  lt_iff : ∀ x y : α, Scale.lt x y = true ↔ value x < value y
  le_iff : ∀ x y : α, Scale.le x y = true ↔ value x ≤ value y
  orderLe_iff : ∀ x y : α, Scale.orderLe x y = true ↔ value x ≤ value y
  hundredths : ∀ n, value (Scale.hundredths n) = n / 100

/-- The scale of rational numbers. -/
instance Scale.rational : Scale ℚ where
  zero := 0
  one := 1
  add x y := x + y
  mul x y := x * y
  min x y := Min.min x y
  lt x y := x < y
  le x y := x ≤ y
  orderLe x y := x ≤ y
  hundredths n := n / 100
  text x := String.ofList ((if x < 0 then ['-'] else []) ++
    pointBefore 2 (digitsOf (roundDiv (x.num.natAbs * 100) x.den)))

theorem Scale.exact_rational : Scale.Exact (id : ℚ → ℚ) where
  zero := rfl
  one := rfl
  add _ _ := rfl
  mul _ _ := rfl
  min _ _ := rfl
  lt_iff _ _ := decide_eq_true_iff
  le_iff _ _ := decide_eq_true_iff
  orderLe_iff _ _ := decide_eq_true_iff
  hundredths _ := rfl

end AgentFlow
