import AgentFlow.Data.Value
import AgentFlow.Lint.Report

/-!
# Violations as data

How the findings of a check and its report are written as values of data formats and read from them.
-/

namespace AgentFlow.Wire

open Data Lint

def ofViolation (v : Violation) : Value :=
  .table [("antipattern_id", .text v.ruleId), ("name", .text v.title),
    ("severity", .text v.severity.name), ("file_path", .text v.path), ("line_number", .nat v.line),
    ("message", .text v.message), ("suggestion", .text v.suggestion)]

def violation? (v : Value) : Option Violation := do
  match ← v.fields? ["antipattern_id", "name", "severity", "file_path", "line_number", "message",
    "suggestion"] with
  | [id, title, severity, path, line, message, suggestion] =>
    some {
      ruleId := ← Value.required Value.text? id
      title := ← Value.required Value.text? title
      severity := ← Value.required (fun v => v.name?.bind Severity.parse?) severity
      path := ← Value.required Value.text? path
      line := ← Value.required Value.count? line
      message := ← Value.required Value.text? message
      suggestion := ← Value.required Value.text? suggestion }
  | _ => none

def ofReport (r : Report) : Value :=
  .table [("target", .text r.target), ("files_scanned", .nat r.filesScanned),
    ("violations", .list (r.violations.map ofViolation))]

def report? (v : Value) : Option Report := do
  match ← v.fields? ["target", "files_scanned", "violations"] with
  | [target, files, violations] =>
    some {
      target := ← Value.required Value.text? target
      filesScanned := ← Value.required Value.count? files
      violations := ← Value.required (Value.list? violation?) violations }
  | _ => none

end AgentFlow.Wire
