import AgentFlow.Lint.Violation
import AgentFlow.Number.Single
import AgentFlow.Recommendation.Basic
import AgentFlow.Text.Blank
import AgentFlow.Text.Split

/-!
# Lines on the console

How commands word what they print: marks before messages, titles, labelled values, and the lines
about recommendations and files.
-/

namespace AgentFlow.Command

def doneLine (message : String) : String := "✓ " ++ message

def failedLine (message : String) : String := "✗ " ++ message

def warningLine (message : String) : String := "⚠ " ++ message

def infoLine (message : String) : String := "ℹ " ++ message

def title (message : String) : List String := ["", message]

/-- A title with an empty line before it and a rule below. -/
def sectionTitle (message : String) : List String :=
  ["", message, String.ofList (List.replicate 40 '─')]

def labelled (label value : String) : String :=
  "  " ++ Text.padRight 20 (label ++ ":") ++ " " ++ value

def yesNo (b : Bool) : String := if b then "yes" else "no"

def sectionOf (message : String) (lines : List String) : List String :=
  if lines.isEmpty then [] else sectionTitle message ++ lines

def findingLine (v : Lint.Violation) : String :=
  warningLine (v.path ++ ":" ++ toString v.line ++ " [" ++ v.severity.name ++ "] " ++ v.message)

def sizeLine (path content : String) : String :=
  "  " ++ Text.padRight 28 path ++ " " ++ Text.padLeft 6 (toString content.utf8ByteSize) ++ " bytes"

def combinationLine (key : String) (c : Combination Float32) : String :=
  "  " ++ Text.padRight 28 key ++ " " ++ Number.Single.hundredths c.strength ++ " " ++
    (if c.knownHybrid then "hybrid" else "")

def recommendationLines (r : Recommendation Float32) : List String :=
  title "Pattern Recommendation" ++
    [labelled "Primary pattern" r.primary.name,
      labelled "Confidence" (Number.Single.hundredths r.confidence)] ++
    (if r.secondary.isEmpty then []
      else [labelled "Secondary" (", ".intercalate (r.secondary.map (·.name)))]) ++
    [labelled "Complexity" r.suggestions.complexity.name,
      labelled "Estimated nodes" (toString r.suggestions.estimatedNodes),
      labelled "FastAPI" (yesNo r.suggestions.fastApi)] ++
    (r.customizations.scaffold.map fun s => labelled "Graduated scaffold" s.name).toList ++
    sectionOf "Combinations"
      (r.customizations.combinations.entries.map fun (key, c) => combinationLine key c) ++
    sectionOf "Suggested utilities" (r.suggestions.utilities.map fun u => "  - " ++ u) ++
    sectionTitle "Rationale" ++ ["  " ++ r.rationale]

end AgentFlow.Command
