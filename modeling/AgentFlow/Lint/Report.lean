import AgentFlow.Data.SortedMap
import AgentFlow.Lint.Violation

/-!
# Reports

What one check found, and the views of it: counts by severity and by rule, and the findings of each
file.
-/

namespace AgentFlow.Lint

open Data

structure Report where
  target : String
  filesScanned : Nat := 0
  violations : List Violation := []

namespace Report

variable (r : Report)

def count (s : Severity) : Nat := r.violations.countP (·.severity == s)

/-- The number of findings of every severity, the worst first. -/
def severityCounts : List (Severity × Nat) := Severity.all.map fun s => (s, r.count s)

/-- The number of findings of every rule that was broken. -/
def ruleCounts : SortedMap String Nat :=
  r.violations.foldl (fun m v => m.insert v.ruleId ((m.get? v.ruleId).getD 0 + 1)) .empty

def hasBlocking : Bool := r.violations.any (·.severity.isBlocking)

def blockingCount : Nat := r.violations.countP (·.severity.isBlocking)

def byFile : SortedMap String (List Violation) :=
  r.violations.foldl (fun m v => m.insert v.path ((m.get? v.path).getD [] ++ [v])) .empty

/-- The status with which a check ends. -/
def exitCode : Nat := if r.hasBlocking then 1 else 0

end Report

end AgentFlow.Lint
