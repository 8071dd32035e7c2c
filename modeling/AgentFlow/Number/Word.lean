/-!
# Machine words

The ranges of words of 64 bits, with a sign and without.
-/

namespace AgentFlow.Number

/-- The number of words, `2 ^ 64`. -/
def wordCount : Nat := 18446744073709551616

/-- The number of words without a sign, `2 ^ 63`. -/
def halfWord : Nat := 9223372036854775808

def fitsWord (n : Int) : Bool := -(halfWord : Int) ≤ n && n < halfWord

theorem fitsWord_iff {n : Int} : fitsWord n ↔ -(halfWord : Int) ≤ n ∧ n < halfWord := by
  simp [fitsWord]

end AgentFlow.Number
