import AgentFlow.Number.Word

/-!
# Sums and averages of recorded numbers

Sums of whole numbers are exact as long as they fit a signed machine word of 64 bits at every step.
Averages of whole numbers divide the exact sum while there is one; beyond it, and for numbers with a
fraction, the sum keeps the part that rounding loses in a second number.

* `wordSum?_eq_some`: a sum that is there is the true sum.
-/

namespace AgentFlow.Runs

open Number

def wordOfCount (n : Nat) : Int := Int.bmod n wordCount

def countOfWord (n : Int) : Nat := (n % wordCount).toNat

/-- The sum from `sum` on, unless some step leaves the machine word. -/
def wordSumFrom? (sum : Int) : List Int → Option Int
  | [] => some sum
  | n :: rest => if fitsWord (sum + n) then wordSumFrom? (sum + n) rest else none

def wordSum? (ns : List Int) : Option Int := wordSumFrom? 0 ns

theorem wordSumFrom?_eq_some {sum total : Int} {ns : List Int}
    (h : wordSumFrom? sum ns = some total) : total = sum + ns.foldr (· + ·) 0 := by
  induction ns generalizing sum with
  | nil => simp [wordSumFrom?] at h; simp [h]
  | cons n rest ih =>
    unfold wordSumFrom? at h
    split at h
    · have := ih h
      simp only [List.foldr_cons]
      omega
    · simp at h

theorem wordSum?_eq_some {total : Int} {ns : List Int} (h : wordSum? ns = some total) :
    total = ns.foldr (· + ·) 0 := by
  have := wordSumFrom?_eq_some h
  omega

/-! ## Compensated sums -/

/-- A sum and what rounding has lost of it. -/
structure Compensated where
  sum : Float
  lost : Float

namespace Compensated

/-- The double precision number nearest to a whole number. -/
def ofWord (n : Int) : Float :=
  if 0 ≤ n then (UInt64.ofNat n.toNat).toFloat else -(UInt64.ofNat (-n).toNat).toFloat

def add (c : Compensated) (x : Float) : Compensated :=
  let t := c.sum + x
  let lost := if c.sum.abs > x.abs then (c.sum - t) + x else (x - t) + c.sum
  ⟨t, c.lost + lost⟩

/-- Whether a whole number has few enough digits to be held without rounding in any case: at most
fifty-two binary ones. -/
def isSmall (n : Int) : Bool := n.natAbs < 4503599627370496

/-- The low digits of a whole number, fourteen binary ones, that are added apart from the rest. -/
def lowPart (n : Int) : Int := n.tmod 16384

def start (n : Int) : Compensated :=
  if isSmall n then ⟨ofWord n, 0⟩ else ⟨ofWord (n - lowPart n), ofWord (lowPart n)⟩

def addWord (c : Compensated) (n : Int) : Compensated :=
  if isSmall n then c.add (ofWord n) else (c.add (ofWord (n - lowPart n))).add (ofWord (lowPart n))

def total (c : Compensated) : Float := if c.lost.isFinite then c.sum + c.lost else c.sum

end Compensated

/-- The sum of whole numbers from an exact `sum` on, as a double precision number. -/
def sumFrom (sum : Int) : List Int → Float
  | [] => Compensated.ofWord sum
  | n :: rest =>
    if fitsWord (sum + n) then sumFrom (sum + n) rest
    else ((n :: rest).foldl Compensated.addWord (.start sum)).total

/-- The quotient of a sum and the number of its summands, if there are any. -/
def quotient? (sum : Float) (count : Nat) : Option Float :=
  if count = 0 then none else some (sum / Compensated.ofWord count)

def averageOfWords? (ns : List Int) : Option Float := quotient? (sumFrom 0 ns) ns.length

def averageOfReals? (xs : List Float) : Option Float :=
  quotient? (xs.foldl Compensated.add ⟨0, 0⟩).total xs.length

end AgentFlow.Runs
