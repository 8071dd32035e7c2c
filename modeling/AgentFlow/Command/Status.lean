import AgentFlow.Command.Setup

/-!
# The command that shows the status

Whether the project is set up, and what the record of runs adds up to.
-/

namespace AgentFlow.Command

open Data

def averageText (x : Option Float) : String :=
  match x with
  | some ms => Number.Double.tenths ms ++ " ms"
  | none => "-"

def runLines (s : RunSummary) : List String :=
  sectionTitle "Runs" ++
    [labelled "Analyses"
        (toString s.analysisRuns ++ " (avg " ++ averageText s.averageAnalysis ++ ")"),
      labelled "Generations"
        (toString s.generationRuns ++ " (avg " ++ averageText s.averageGeneration ++ ", " ++
          toString s.totalFiles ++ " files)"),
      labelled "Detections"
        (toString s.detectionRuns ++ " (avg " ++ averageText s.averageDetection ++ ", " ++
          toString s.totalViolations ++ " violations, " ++ toString s.blockingDetections ++
          " blocking)")] ++
    (s.averageConfidence.map fun c =>
      labelled "Avg confidence" (Number.Double.hundredths c)).toList ++
    (s.lastRun.map fun time => labelled "Last run" time).toList ++
    sectionOf "Pattern distribution"
      (s.distribution.entries.map fun (name, n) =>
        "  " ++ Text.padRight 20 name ++ " " ++ toString n)

structure ProjectStatus where
  initialized : Bool
  settings : Settings
  recordFile : String
  summary : Option RunSummary

namespace ProjectStatus

/-- The status as it is now.  A record that is wanted and there has to be readable. -/
def now (env : Environment) : Activity ProjectStatus := do
  let s ← loadSettings env
  let t ← Activity.tree
  let path := env.recordFile s
  let summary ←
    if s.metrics.enabled && t.hasPath path then
      let log ← Activity.onDisk (RunLog.openFile path)
      some <$> Activity.require log.summary?
    else pure none
  return ⟨isInitialized env t, s, path, summary⟩

variable (status : ProjectStatus)

/-- The status as data, its members in the order of their keys. -/
def value : Value :=
  .table [("initialized", .bool status.initialized), ("metrics_db", .text status.recordFile),
    ("metrics_enabled", .bool status.settings.metrics.enabled),
    ("summary", (status.summary.map Wire.ofRunSummary).getD .null)]

def recordLines : List String :=
  if !status.settings.metrics.enabled then
    [infoLine "Metrics are disabled ([metrics].enabled = false)"]
  else
    match status.summary with
    | some s => runLines s
    | none => [infoLine "No metrics recorded yet"]

def lines : List String :=
  title "PocketForge Status" ++
    [labelled "Initialized" (yesNo status.initialized),
      labelled "Workflows dir" status.settings.generation.workflowsDirectory] ++
    status.recordLines

end ProjectStatus

def showStatus (env : Environment) (form : OutputForm) : Activity Unit := do
  let status ← ProjectStatus.now env
  match form with
  | .json => Activity.say (Json.pretty status.value)
  | .text => Activity.sayAll status.lines

end AgentFlow.Command
