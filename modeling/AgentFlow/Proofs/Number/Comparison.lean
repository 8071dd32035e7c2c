import AgentFlow.Number.Single
import Mathlib.Algebra.Order.Ring.Int

/-!
# Comparing numbers of single precision

Numbers of single precision are compared in two ways: as numbers, where both zeros are the same, and
by their bits, where `-0.0` stands below `0.0`.  The bits without the sign count the steps from zero
to the number, through all numbers in between.  Both comparisons are comparisons of these counts.

* `Numeric.compare_eq`: **numbers compare as their steps from zero do.**
* `unpack_cases`: the steps from zero are the bits without the sign.
* `Single.lt_iff`, `Single.le_iff`: the comparisons of numbers.
* `Single.key_injective`, `Single.key_lt_iff`: **the order by bits is the order of the numbers, with
  `-0.0` below `0.0`.**
-/

namespace AgentFlow.Number

open Float.Model
open Float.Model.UnpackedFloat (Sign unpackSign unpackExponent unpackMantissa)

/-! ### Steps from zero -/

/-- A significand and an exponent as they are unpacked: the significand has all its bits, or the
exponent is the least one. -/
structure Aligned (m : Nat) (e : Int) : Prop where
  positive : 0 < m
  bits : m < 2 ^ 24
  full : 2 ^ 23 ≤ m ∨ e = -149
  least : -149 ≤ e
  greatest : e ≤ 104

/-- The steps from zero to a number with the significand and the exponent. -/
def stepsTo (m : Nat) (e : Int) : Int := (e + 149) * 2 ^ 23 + m

def stepsToInfinity : Int := 255 * 2 ^ 23

namespace Aligned

variable {m n : Nat} {e f : Int}

theorem stepsTo_pos (h : Aligned m e) : 0 < stepsTo m e := by
  have := h.positive
  have := h.least
  rw [stepsTo]
  omega

theorem stepsTo_lt (h : Aligned m e) : stepsTo m e < stepsToInfinity := by
  have := h.bits
  have := h.greatest
  rw [stepsTo, stepsToInfinity]
  omega

/-- The exponent decides before the significand does. -/
theorem compare_eq (h : Aligned m e) (h' : Aligned n f) :
    (compare e f).then (compare m n) = compare (stepsTo m e) (stepsTo n f) := by
  obtain ⟨-, hm, hfull, hleast, -⟩ := h
  obtain ⟨-, hn, hfull', hleast', -⟩ := h'
  rw [stepsTo, stepsTo]
  rcases Int.lt_trichotomy e f with hlt | rfl | hgt
  · rw [Int.compare_eq_lt.mpr hlt, Int.compare_eq_lt.mpr (by omega)]
    rfl
  · rw [Int.compare_eq_eq.mpr rfl]
    rcases Nat.lt_trichotomy m n with hlt | rfl | hgt
    · rw [Nat.compare_eq_lt.mpr hlt, Int.compare_eq_lt.mpr (by omega)]
      rfl
    · rw [Nat.compare_eq_eq.mpr rfl, Int.compare_eq_eq.mpr rfl]
      rfl
    · rw [Nat.compare_eq_gt.mpr hgt, Int.compare_eq_gt.mpr (by omega)]
      rfl
  · rw [Int.compare_eq_gt.mpr hgt, Int.compare_eq_gt.mpr (by omega)]
    rfl

end Aligned

/-- An unpacked number with its steps from zero, which are negative below zero. -/
inductive Numeric : UnpackedFloat → Int → Prop
  | zero (s : Sign) : Numeric (.zero s) 0
  | infinity (s : Sign) : Numeric (.infinity s) (s.apply stepsToInfinity)
  | finite (s : Sign) {m : Nat} {e : Int} (h : Aligned m e) :
      Numeric (.finite s m e h.positive) (s.apply (stepsTo m e))

theorem compare_neg (i j : Int) : compare (-i) (-j) = (compare i j).swap := by
  rcases Int.lt_trichotomy i j with hlt | rfl | hgt
  · rw [Int.compare_eq_lt.mpr hlt, Int.compare_eq_gt.mpr (Int.neg_lt_neg hlt)]
    rfl
  · rw [Int.compare_eq_eq.mpr rfl, Int.compare_eq_eq.mpr rfl]
    rfl
  · rw [Int.compare_eq_gt.mpr hgt, Int.compare_eq_lt.mpr (Int.neg_lt_neg hgt)]
    rfl

/-- **Numbers compare as their steps from zero do.** -/
theorem Numeric.compare_eq {a b : UnpackedFloat} {i j : Int} (ha : Numeric a i)
    (hb : Numeric b j) : a.compare b = some (compare i j) := by
  have hinf : 0 < stepsToInfinity := by decide
  have below {i j : Int} (h : i < j) : some .lt = some (compare i j) :=
    congrArg some (Int.compare_eq_lt.mpr h).symm
  have above {i j : Int} (h : j < i) : some .gt = some (compare i j) :=
    congrArg some (Int.compare_eq_gt.mpr h).symm
  cases ha with
  | zero s =>
    cases hb with
    | zero t => rfl
    | infinity t => cases t <;> rfl
    | finite t h =>
      have hpos := h.stepsTo_pos
      cases t with
      | negative => exact above (Int.neg_neg_of_pos hpos)
      | positive => exact below hpos
  | infinity s =>
    cases hb with
    | zero t => cases s <;> rfl
    | infinity t => cases s <;> cases t <;> rfl
    | finite t h =>
      have hpos := h.stepsTo_pos
      have hlt := h.stepsTo_lt
      cases s with
      | negative => cases t <;> exact below (by simp only [Sign.apply]; omega)
      | positive => cases t <;> exact above (by simp only [Sign.apply]; omega)
  | finite s h =>
    have hpos := h.stepsTo_pos
    have hlt := h.stepsTo_lt
    cases hb with
    | zero t =>
      cases s with
      | negative => exact below (Int.neg_neg_of_pos hpos)
      | positive => exact above hpos
    | infinity t =>
      cases t with
      | negative => cases s <;> exact above (by simp only [Sign.apply]; omega)
      | positive => cases s <;> exact below (by simp only [Sign.apply]; omega)
    | finite t h' =>
      have hpos' := h'.stepsTo_pos
      cases s with
      | negative =>
        cases t with
        | negative =>
          rw [Sign.apply, Sign.apply, compare_neg, ← h.compare_eq h']
          rfl
        | positive => exact below (by simp only [Sign.apply]; omega)
      | positive =>
        cases t with
        | negative => exact above (by simp only [Sign.apply]; omega)
        | positive =>
          rw [Sign.apply, Sign.apply, ← h.compare_eq h']
          rfl

/-! ### Numbers from bits -/

section

variable {b : BitVec 32}

theorem toNat_unpackMantissa (b : BitVec 32) :
    (@unpackMantissa .binary32 b).toNat = b.toNat % 2 ^ 23 := rfl

theorem unpackMantissa_eq_iff {k : BitVec 23} :
    @unpackMantissa .binary32 b = k ↔ b.toNat % 2 ^ 23 = k.toNat :=
  BitVec.toNat_inj.symm

theorem toNat_unpackExponent (b : BitVec 32) :
    (@unpackExponent .binary32 b).toNat = b.toNat / 2 ^ 23 % 2 ^ 8 := by
  show (b.toNat >>> 23) % 2 ^ 8 = _
  rw [Nat.shiftRight_eq_div_pow]

theorem unpackExponent_eq_iff {k : BitVec 8} :
    @unpackExponent .binary32 b = k ↔ b.toNat / 2 ^ 23 % 2 ^ 8 = k.toNat := by
  rw [← toNat_unpackExponent]
  exact BitVec.toNat_inj.symm

theorem unpackSign_eq_iff {k : BitVec 1} :
    @unpackSign .binary32 b = k ↔ b.toNat / 2 ^ 31 = k.toNat := by
  have htoNat : (@unpackSign .binary32 b).toNat = b.toNat / 2 ^ 31 := by
    show (b.toNat >>> 31) % 2 ^ 1 = _
    have := b.isLt
    rw [Nat.shiftRight_eq_div_pow]
    omega
  rw [← htoNat]
  exact BitVec.toNat_inj.symm

def signOf (b : BitVec 32) : Sign := Sign.ofBitVec (@unpackSign .binary32 b)

theorem signOf_eq (b : BitVec 32) :
    signOf b = if b.toNat < 2 ^ 31 then .positive else .negative := by
  rw [signOf, Sign.ofBitVec]
  split
  · next h =>
    have hzero : b.toNat / 2 ^ 31 = 0 := unpackSign_eq_iff.mp h
    rw [if_pos (by omega)]
  · next h =>
    have hone : b.toNat / 2 ^ 31 ≠ 0 := fun h' => h (unpackSign_eq_iff.mpr h')
    rw [if_neg (by omega)]

theorem finite_congr {s : Sign} {m m' : Nat} {e e' : Int} {h : 0 < m} {h' : 0 < m'} (hm : m = m')
    (he : e = e') : UnpackedFloat.finite s m e h = .finite s m' e' h' := by
  subst hm he
  rfl

/-- The greatest exponent stands for infinity, or for no number. -/
theorem unpack_of_exponent_max (h : @unpackExponent .binary32 b = -1#8) :
    UnpackedFloat.unpack .binary32 b = .notANumber ∨
      Numeric (.unpack .binary32 b) ((signOf b).apply (b.toNat % 2 ^ 31 : Nat)) := by
  by_cases hzero : @unpackMantissa .binary32 b = 0#23
  · right
    have hexponent : b.toNat / 2 ^ 23 % 2 ^ 8 = 255 := unpackExponent_eq_iff.mp h
    have hmantissa : b.toNat % 2 ^ 23 = 0 := unpackMantissa_eq_iff.mp hzero
    have hsteps : ((b.toNat % 2 ^ 31 : Nat) : Int) = stepsToInfinity := by
      rw [stepsToInfinity]
      omega
    have hunpack : UnpackedFloat.unpack .binary32 b = .infinity (signOf b) :=
      (if_pos h).trans (if_pos hzero)
    rw [hunpack, hsteps]
    exact .infinity _
  · exact .inl ((if_pos h).trans (if_neg hzero))

/-- The exponent zero stands for zero, and for the numbers whose significand is not full. -/
theorem unpack_of_exponent_zero (h : @unpackExponent .binary32 b = 0#8) :
    Numeric (.unpack .binary32 b) ((signOf b).apply (b.toNat % 2 ^ 31 : Nat)) := by
  have hmax : @unpackExponent .binary32 b ≠ -1#8 := by rw [h]; decide
  have hexponent : b.toNat / 2 ^ 23 % 2 ^ 8 = 0 := unpackExponent_eq_iff.mp h
  by_cases hzero : @unpackMantissa .binary32 b = 0#23
  · have hmantissa : b.toNat % 2 ^ 23 = 0 := unpackMantissa_eq_iff.mp hzero
    have hsteps : (signOf b).apply (b.toNat % 2 ^ 31 : Nat) = 0 := by
      rw [show b.toNat % 2 ^ 31 = 0 by omega]
      cases signOf b <;> rfl
    have hunpack : UnpackedFloat.unpack .binary32 b = .zero (signOf b) :=
      (if_neg hmax).trans ((if_pos h).trans (dif_pos hzero))
    rw [hunpack, hsteps]
    exact .zero _
  · have hmantissa : b.toNat % 2 ^ 23 ≠ 0 := fun h' =>
      hzero (unpackMantissa_eq_iff.mpr h')
    have haligned : Aligned (b.toNat % 2 ^ 23) (-149) :=
      ⟨by omega, by omega, .inr rfl, by decide, by decide⟩
    have hsteps : ((b.toNat % 2 ^ 31 : Nat) : Int) = stepsTo (b.toNat % 2 ^ 23) (-149) := by
      rw [stepsTo]
      omega
    have hunpack : UnpackedFloat.unpack .binary32 b =
        .finite (signOf b) (b.toNat % 2 ^ 23) (-149) haligned.positive := by
      refine ((if_neg hmax).trans ((if_pos h).trans (dif_neg hzero))).trans (finite_congr rfl ?_)
      rw [toNat_unpackExponent, hexponent]
      rfl
    rw [hunpack, hsteps]
    exact .finite _ haligned

/-- All other exponents stand for numbers with a full significand. -/
theorem unpack_of_exponent_between (hmax : @unpackExponent .binary32 b ≠ -1#8)
    (hzero : @unpackExponent .binary32 b ≠ 0#8) :
    Numeric (.unpack .binary32 b) ((signOf b).apply (b.toNat % 2 ^ 31 : Nat)) := by
  have hexponent : b.toNat / 2 ^ 23 % 2 ^ 8 ≠ 255 := fun h =>
    hmax (unpackExponent_eq_iff.mpr h)
  have hexponent' : b.toNat / 2 ^ 23 % 2 ^ 8 ≠ 0 := fun h =>
    hzero (unpackExponent_eq_iff.mpr h)
  have haligned : Aligned (2 ^ 23 + b.toNat % 2 ^ 23)
      ((b.toNat / 2 ^ 23 % 2 ^ 8 : Nat) - 150) :=
    ⟨by omega, by omega, .inl (by omega), by omega, by omega⟩
  have hsteps : ((b.toNat % 2 ^ 31 : Nat) : Int) =
      stepsTo (2 ^ 23 + b.toNat % 2 ^ 23) ((b.toNat / 2 ^ 23 % 2 ^ 8 : Nat) - 150) := by
    rw [stepsTo]
    omega
  -- The leading bit of the significand is not among the bits of the number.
  have hfull : (1#1 ++ @unpackMantissa .binary32 b).toNat = 2 ^ 23 + b.toNat % 2 ^ 23 := by
    have hlt : b.toNat % 2 ^ 23 < 2 ^ 23 := Nat.mod_lt _ (by decide)
    rw [BitVec.toNat_append, toNat_unpackMantissa, ← Nat.shiftLeft_add_eq_or_of_lt hlt]
    rfl
  have hunpack : UnpackedFloat.unpack .binary32 b =
      .finite (signOf b) (2 ^ 23 + b.toNat % 2 ^ 23) ((b.toNat / 2 ^ 23 % 2 ^ 8 : Nat) - 150)
        haligned.positive := by
    refine ((if_neg hmax).trans (if_neg hzero)).trans (finite_congr hfull ?_)
    rw [toNat_unpackExponent]
    rfl
  rw [hunpack, hsteps]
  exact .finite _ haligned

/-- **The bits without the sign are the steps from zero, unless there is no number.** -/
theorem unpack_cases (b : BitVec 32) :
    UnpackedFloat.unpack .binary32 b = .notANumber ∨
      Numeric (.unpack .binary32 b) ((signOf b).apply (b.toNat % 2 ^ 31 : Nat)) := by
  by_cases hmax : @unpackExponent .binary32 b = -1#8
  · exact unpack_of_exponent_max hmax
  · by_cases hzero : @unpackExponent .binary32 b = 0#8
    · exact .inr (unpack_of_exponent_zero hzero)
    · exact .inr (unpack_of_exponent_between hmax hzero)

end

/-! ### Single precision -/

namespace Single

/-- The steps from zero to a number, which are negative below zero. -/
def steps (x : Float32) : Int :=
  if x.toBits.toNat < 2 ^ 31 then x.toBits.toNat else 2 ^ 31 - (x.toBits.toNat : Int)

/-- One number stands below another one in the total order: it is less, or it is the zero with the
sign and the other one is the zero without it. -/
def Below (x y : Float32) : Prop := x < y ∨ x = -0.0 ∧ y = 0.0

variable {x y : Float32}

theorem numeric_unpack (h : x.isNaN = false) : Numeric x.toModel.unpack (steps x) := by
  rcases unpack_cases x.toBits.toBitVec with hnan | hnumeric
  · have hisNaN : x.isNaN = (UnpackedFloat.unpack .binary32 x.toBits.toBitVec).isNaN := rfl
    rw [hisNaN, hnan] at h
    exact absurd h Bool.noConfusion
  · have hsteps : (signOf x.toBits.toBitVec).apply (x.toBits.toNat % 2 ^ 31 : Nat) = steps x := by
      have hlt := x.toBits.toNat_lt
      have hsign : signOf x.toBits.toBitVec =
          if x.toBits.toNat < 2 ^ 31 then .positive else .negative := signOf_eq _
      rw [hsign, steps]
      split
      · rw [Sign.apply]
        omega
      · rw [Sign.apply]
        omega
    exact hsteps ▸ hnumeric

theorem lt_iff (hx : x.isNaN = false) (hy : y.isNaN = false) : x < y ↔ steps x < steps y := by
  show decide ((x.toModel.unpack.compare y.toModel.unpack == some .lt) = true) = true ↔ _
  rw [(numeric_unpack hx).compare_eq (numeric_unpack hy), decide_eq_true_iff, beq_iff_eq,
    Option.some.injEq, Int.compare_eq_lt]

theorem le_iff (hx : x.isNaN = false) (hy : y.isNaN = false) : x ≤ y ↔ steps x ≤ steps y := by
  show decide ((x.toModel.unpack.compare y.toModel.unpack).any (·.isLE) = true) = true ↔ _
  rw [(numeric_unpack hx).compare_eq (numeric_unpack hy), decide_eq_true_iff, Option.any_some,
    Int.isLE_compare]

theorem not_lt_iff (hx : x.isNaN = false) (hy : y.isNaN = false) : ¬ x < y ↔ y ≤ x := by
  rw [lt_iff hx hy, le_iff hy hx, Int.not_lt]

theorem not_le_iff (hx : x.isNaN = false) (hy : y.isNaN = false) : ¬ x ≤ y ↔ y < x := by
  rw [le_iff hx hy, lt_iff hy hx, Int.not_le]

theorem eq_of_toBits (h : x.toBits.toNat = y.toBits.toNat) : x = y := by
  obtain ⟨⟨b, hb⟩⟩ := x
  obtain ⟨⟨c, hc⟩⟩ := y
  obtain rfl : b = c := UInt32.toNat_inj.mp h
  rfl

/-- The place in the total order counts one step more for the sign. -/
theorem key_eq (x : Float32) :
    key x = if x.toBits.toNat < 2 ^ 31 then steps x else steps x - 1 := by
  rw [key, steps]
  show (if x.toBits.toNat < 2 ^ 31 then (x.toBits.toNat : Int)
    else (2 ^ 31 : Nat) - 1 - (x.toBits.toNat : Int)) = _
  split
  · rfl
  · omega

/-- **Numbers with the same place in the total order are identical.** -/
theorem key_injective (h : key x = key y) : x = y := by
  have hx := x.toBits.toNat_lt
  have hy := y.toBits.toNat_lt
  refine eq_of_toBits ?_
  rw [key_eq, key_eq, steps, steps] at h
  split at h <;> split at h <;> omega

/-- **The total order is the order of the numbers, with `-0.0` below `0.0`.** -/
theorem key_lt_iff (hx : x.isNaN = false) (hy : y.isNaN = false) :
    key x < key y ↔ Below x y := by
  have hneg : x = -0.0 ↔ x.toBits.toNat = 2 ^ 31 :=
    ⟨fun h => h ▸ rfl, fun h => eq_of_toBits (h.trans rfl)⟩
  have hpos : y = 0.0 ↔ y.toBits.toNat = 0 :=
    ⟨fun h => h ▸ rfl, fun h => eq_of_toBits (h.trans rfl)⟩
  have hx' := x.toBits.toNat_lt
  have hy' := y.toBits.toNat_lt
  rw [Below, lt_iff hx hy, hneg, hpos, key_eq, key_eq, steps, steps]
  split <;> split <;> omega

end Single

end AgentFlow.Number
