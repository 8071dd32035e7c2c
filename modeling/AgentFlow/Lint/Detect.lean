import AgentFlow.Lint.LineRules
import AgentFlow.Lint.Rules
import AgentFlow.Code.Statement

/-!
# Checking a text

`detect` joins the rules on classes and functions with those on lines.  A text that cannot be read
has its syntax error as the only finding.
-/

namespace AgentFlow.Lint

/-- What is found in a text, in the order of the lines, the worst first on each. -/
def detect (path : String) (s : DetectionSettings) (source : String) : List Violation :=
  match Code.parse source with
  | .error line =>
    [.of .syntaxError path line ("Python syntax error near line " ++ toString line)
      "Fix the syntax error; no other checks ran on this file"]
  | .ok t =>
    (check path s (sourceFacts t) ++ checkLines path source).mergeSort fun a b =>
      a.line < b.line || (a.line == b.line && a.severity.rank ≤ b.severity.rank)

end AgentFlow.Lint
