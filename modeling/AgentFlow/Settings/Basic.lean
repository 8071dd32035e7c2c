import AgentFlow.Pattern

/-!
# Settings

The settings of the program and their defaults.
-/

namespace AgentFlow

structure AnalysisSettings where
  defaultContext : String := "create-spec"
  secondaryThreshold : Float32 := 0.3
  combinationThreshold : Float32 := 0.45
  ambiguityRatio : Float32 := 0.85
  hybridPromotion : Bool := false

def AnalysisSettings.stage (s : AnalysisSettings) : Stage := Stage.read s.defaultContext

structure GenerationSettings where
  workflowsDirectory : String := "workflows"
  fastApi : Bool := true

structure DetectionSettings where
  maxExecLines : Nat := 40
  maxPrepPostLines : Nat := 25
  minUtilityBranches : Nat := 2
  /-- Patterns of paths that a scan leaves out. -/
  exclude : List String :=
    ["**/.venv/**", "**/venv/**", "**/__pycache__/**", "**/site-packages/**"]

structure MetricsSettings where
  enabled : Bool := true
  databasePath : String := ".pocketforge/metrics.db"

structure Settings where
  version : String := "1.0"
  analysis : AnalysisSettings := {}
  generation : GenerationSettings := {}
  detection : DetectionSettings := {}
  metrics : MetricsSettings := {}

end AgentFlow
