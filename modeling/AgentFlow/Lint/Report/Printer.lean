import AgentFlow.Json.Printer
import AgentFlow.Text.Blank
import AgentFlow.Text.Split
import AgentFlow.Wire.Violation

/-!
# Writing reports

A report as text for the screen, as JSON and as a document.  The findings stand under their files,
in the order in which they were found.
-/

namespace AgentFlow.Lint

open Data

def Violation.screenLines (v : Violation) : List String :=
  ("  L" ++ Text.padRight 5 (toString v.line) ++ " " ++ Text.padRight 8 v.severity.name ++ " " ++
      v.ruleId ++ ": " ++ v.message) ::
    if v.suggestion.isEmpty then [] else ["         → " ++ v.suggestion]

/-- A text for a cell of a table: on one line, with bars escaped. -/
def tableCell (s : String) : String :=
  Text.replaceChars (· == '\n') [' '] (Text.replaceChars (· == '|') ['\\', '|'] s)

def Violation.tableRow (v : Violation) : String :=
  "| " ++ toString v.line ++ " | " ++ v.severity.name ++ " | " ++ v.title ++ " | " ++
    tableCell v.message ++ " | " ++ tableCell v.suggestion ++ " |"

namespace Report

variable (r : Report)

def screen : String :=
  Text.unlines
    (["Antipattern report: " ++ r.target, "Files scanned: " ++ toString r.filesScanned] ++
      r.byFile.entries.flatMap (fun (path, found) =>
        ["", path] ++ found.flatMap Violation.screenLines) ++
      ["",
        if r.violations.isEmpty then "✓ No antipatterns found"
        else
          "Summary: " ++
            ", ".intercalate (r.severityCounts.map fun (s, n) => toString n ++ " " ++ s.name)])

def summary : Value :=
  .table [("target", .text r.target), ("files_scanned", .nat r.filesScanned),
    ("total_violations", .nat r.violations.length), ("blocking", .bool r.hasBlocking),
    ("by_severity", .table (r.severityCounts.map fun (s, n) => (s.name, .nat n))),
    ("by_antipattern", .table (r.ruleCounts.entries.map fun (id, n) => (id, .nat n)))]

def json : String :=
  Json.pretty (.table [("summary", r.summary),
    ("violations", .list (r.violations.map Wire.ofViolation))])

def document : String :=
  Text.unlines
    (["# Antipattern Report", "", "- **Target:** `" ++ r.target ++ "`",
      "- **Files scanned:** " ++ toString r.filesScanned,
      "- **Violations:** " ++ toString r.violations.length, "",
      "| Severity | Count |", "|---|---|"] ++
      r.severityCounts.map (fun (s, n) => "| " ++ s.name ++ " | " ++ toString n ++ " |") ++
      if r.violations.isEmpty then ["", "No antipatterns found."]
      else
        r.byFile.entries.flatMap fun (path, found) =>
          ["", "## `" ++ path ++ "`", "",
            "| Line | Severity | Antipattern | Message | Suggestion |",
            "|---|---|---|---|---|"] ++ found.map Violation.tableRow)

end Report

end AgentFlow.Lint
