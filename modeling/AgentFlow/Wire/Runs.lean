import AgentFlow.Runs.Log
import AgentFlow.Wire.Recommendation

/-!
# Runs as data

How recorded runs are written as values of data formats and read from them, and the summary of all
runs, whose members stand in the order of their keys.
-/

namespace AgentFlow.Wire

open Data

def ofReal? (x : Option Float) : Value := (x.map Value.real).getD .null

/-- What is recorded of a run; the first member says of which kind it is. -/
def ofRun : Run → List (String × Value)
  | .analysis p c => [("analysis", .text p.name), ("confidence", .real c)]
  | .generation files => [("generation", .int files)]
  | .detection n blocking => [("detection", .nat n), ("blocking", .bool blocking)]

def ofRunEntry (e : RunEntry) : Value :=
  .table (ofRun e.run ++ [("time", .text e.time), ("duration", .nat e.duration)])

/-- A number of double precision. -/
def real? : Value → Option Float
  | .real x => some x
  | _ => none

def int? : Value → Option Int
  | .int n => some n
  | _ => none

def run? (v : Value) : Option Run := do
  match ← v.fields? ["analysis", "confidence", "generation", "detection", "blocking"] with
  | [some p, some c, none, none, none] => some (.analysis (← pattern? p) (← real? c))
  | [none, none, some files, none, none] => some (.generation (← int? files))
  | [none, none, none, some n, some blocking] =>
    some (.detection (← n.count?) (← blocking.bool?))
  | _ => none

def runEntry? (v : Value) : Option RunEntry := do
  match ← v.fields? ["time", "duration"] with
  | [time, duration] =>
    some {
      run := ← run? v
      time := ← Value.required Value.text? time
      duration := ← Value.required Value.count? duration }
  | _ => none

def ofRunSummary (s : RunSummary) : Value :=
  .table [("analysis_runs", .nat s.analysisRuns),
    ("average_confidence", ofReal? s.averageConfidence),
    ("avg_analysis_ms", ofReal? s.averageAnalysis),
    ("avg_detection_ms", ofReal? s.averageDetection),
    ("avg_generation_ms", ofReal? s.averageGeneration),
    ("blocking_detections", .nat s.blockingDetections), ("detection_runs", .nat s.detectionRuns),
    ("generation_runs", .nat s.generationRuns), ("last_run_at", ofText? s.lastRun),
    ("pattern_distribution", ofTextMap .nat s.distribution),
    ("total_files_generated", .nat s.totalFiles), ("total_violations", .nat s.totalViolations)]

end AgentFlow.Wire
