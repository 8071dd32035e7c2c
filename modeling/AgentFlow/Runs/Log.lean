import AgentFlow.Data.SortedMap
import AgentFlow.Fault
import AgentFlow.Lint.Report
import AgentFlow.Recommendation.Basic
import AgentFlow.Runs.Average

/-!
# The record of runs

Every analysis, generation and check is recorded with its time and duration.  The summary counts the
runs of each kind and adds up what they produced.

* `RunLog.summary?` is refused only when a sum leaves the machine word.
-/

namespace AgentFlow

open Data

inductive Run where
  | analysis (primary : Pattern) (confidence : Float)
  /-- The number of files as a signed machine word. -/
  | generation (files : Int)
  | detection (violations : Nat) (blocking : Bool)

/-- A run with the time at its end and its duration in milliseconds. -/
structure RunEntry where
  run : Run
  time : String
  duration : Nat

/-- The recorded runs, the earliest first. -/
abbrev RunLog := List RunEntry

def longestDuration : Nat := Number.halfWord - 1

namespace Run

def ofRecommendation (r : Recommendation Float32) : Run :=
  .analysis r.primary (Number.Single.toDouble r.confidence)

def ofFileCount (files : Nat) : Run := .generation (Runs.wordOfCount files)

def ofReport (r : Lint.Report) : Run := .detection r.violations.length r.hasBlocking

def primary? : Run → Option Pattern
  | analysis p _ => some p
  | _ => none

def confidence? : Run → Option Float
  | analysis _ c => some c
  | _ => none

def files? : Run → Option Int
  | generation n => some n
  | _ => none

def violations? : Run → Option Nat
  | detection n _ => some n
  | _ => none

def blocking? : Run → Option Bool
  | detection _ b => some b
  | _ => none

end Run

/-- The sums and averages over all recorded runs. -/
structure RunSummary where
  analysisRuns : Nat
  generationRuns : Nat
  detectionRuns : Nat
  /-- How many analyses found each pattern, by the pattern's name. -/
  distribution : SortedMap String Nat
  averageConfidence : Option Float
  averageAnalysis : Option Float
  averageGeneration : Option Float
  averageDetection : Option Float
  totalFiles : Nat
  totalViolations : Nat
  blockingDetections : Nat
  lastRun : Option String

def RunSummary.totalRuns (s : RunSummary) : Nat :=
  s.analysisRuns + s.generationRuns + s.detectionRuns

namespace RunLog

def record (log : RunLog) (run : Run) (time : String) (duration : Nat) : RunLog :=
  log ++ [⟨run, time, min duration longestDuration⟩]

def each {α : Type} (log : RunLog) (ask : Run → Option α) : List α := log.filterMap (ask ·.run)

def durations {α : Type} (log : RunLog) (ask : Run → Option α) : List Int :=
  (log.filter fun e => (ask e.run).isSome).map fun e => (e.duration : Int)

def countEach (names : List String) : SortedMap String Nat :=
  .ofList (names.map fun name => (name, names.count name))

def lastTime? (log : RunLog) : Option String :=
  log.foldl (fun latest e =>
    match latest with
    | some t => some (if t < e.time then e.time else t)
    | none => some e.time) none

/-- A sum that the machine word holds. -/
def sumOr (runs : String) (ns : List Int) : Except Fault Int :=
  match Runs.wordSum? ns with
  | some n => .ok n
  | none => .error (.storage ("Failed to summarize " ++ runs ++ " runs: integer overflow"))

def summary? (log : RunLog) : Except Fault RunSummary := do
  let files ← sumOr "generation" (log.each Run.files?)
  let violations ← sumOr "detection" ((log.each Run.violations?).map Int.ofNat)
  .ok {
    analysisRuns := (log.each Run.primary?).length
    generationRuns := (log.each Run.files?).length
    detectionRuns := (log.each Run.violations?).length
    distribution := countEach ((log.each Run.primary?).map (·.name))
    averageConfidence := Runs.averageOfReals? (log.each Run.confidence?)
    averageAnalysis := Runs.averageOfWords? (log.durations Run.primary?)
    averageGeneration := Runs.averageOfWords? (log.durations Run.files?)
    averageDetection := Runs.averageOfWords? (log.durations Run.violations?)
    totalFiles := Runs.countOfWord files
    totalViolations := Runs.countOfWord violations
    blockingDetections := (log.each Run.blocking?).count true
    lastRun := log.lastTime? }

end RunLog

end AgentFlow
