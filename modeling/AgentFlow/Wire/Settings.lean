import AgentFlow.Data.Value
import AgentFlow.Settings.Basic

/-!
# Settings as data

How settings are written as values of data formats and read from them.  A setting that is not there
keeps its default.
-/

namespace AgentFlow.Wire

open Data

def ofAnalysisSettings (s : AnalysisSettings) : Value :=
  .table [("default_context", .text s.defaultContext),
    ("secondary_threshold", .single s.secondaryThreshold),
    ("combination_threshold", .single s.combinationThreshold),
    ("ambiguity_ratio", .single s.ambiguityRatio),
    ("enable_hybrid_promotion", .bool s.hybridPromotion)]

def analysisSettings? (v : Value) : Option AnalysisSettings := do
  match ← v.fields? ["default_context", "secondary_threshold", "combination_threshold",
    "ambiguity_ratio", "enable_hybrid_promotion"] with
  | [context, secondary, combination, ambiguity, hybrid] =>
    let d : AnalysisSettings := {}
    some {
      defaultContext := ← Value.orElse Value.text? d.defaultContext context
      secondaryThreshold := ← Value.orElse Value.single? d.secondaryThreshold secondary
      combinationThreshold := ← Value.orElse Value.single? d.combinationThreshold combination
      ambiguityRatio := ← Value.orElse Value.single? d.ambiguityRatio ambiguity
      hybridPromotion := ← Value.orElse Value.bool? d.hybridPromotion hybrid }
  | _ => none

def ofGenerationSettings (s : GenerationSettings) : Value :=
  .table [("workflows_dir", .text s.workflowsDirectory), ("fast_api_integration", .bool s.fastApi)]

def generationSettings? (v : Value) : Option GenerationSettings := do
  match ← v.fields? ["workflows_dir", "fast_api_integration"] with
  | [directory, fastApi] =>
    let d : GenerationSettings := {}
    some {
      workflowsDirectory := ← Value.orElse Value.text? d.workflowsDirectory directory
      fastApi := ← Value.orElse Value.bool? d.fastApi fastApi }
  | _ => none

def ofDetectionSettings (s : DetectionSettings) : Value :=
  .table [("max_exec_lines", .nat s.maxExecLines), ("max_prep_post_lines", .nat s.maxPrepPostLines),
    ("min_utility_branches", .nat s.minUtilityBranches), ("exclude", .texts s.exclude)]

def detectionSettings? (v : Value) : Option DetectionSettings := do
  match ← v.fields? ["max_exec_lines", "max_prep_post_lines", "min_utility_branches",
    "exclude"] with
  | [exec, prepPost, branches, exclude] =>
    let d : DetectionSettings := {}
    some {
      maxExecLines := ← Value.orElse Value.count? d.maxExecLines exec
      maxPrepPostLines := ← Value.orElse Value.count? d.maxPrepPostLines prepPost
      minUtilityBranches := ← Value.orElse Value.count? d.minUtilityBranches branches
      exclude := ← Value.orElse (Value.list? Value.text?) d.exclude exclude }
  | _ => none

def ofMetricsSettings (s : MetricsSettings) : Value :=
  .table [("enabled", .bool s.enabled), ("db_path", .text s.databasePath)]

def metricsSettings? (v : Value) : Option MetricsSettings := do
  match ← v.fields? ["enabled", "db_path"] with
  | [enabled, path] =>
    let d : MetricsSettings := {}
    some {
      enabled := ← Value.orElse Value.bool? d.enabled enabled
      databasePath := ← Value.orElse Value.text? d.databasePath path }
  | _ => none

def ofSettings (s : Settings) : Value :=
  .table [("version", .text s.version), ("analysis", ofAnalysisSettings s.analysis),
    ("generation", ofGenerationSettings s.generation),
    ("detection", ofDetectionSettings s.detection), ("metrics", ofMetricsSettings s.metrics)]

def settings? (v : Value) : Option Settings := do
  match ← v.fields? ["version", "analysis", "generation", "detection", "metrics"] with
  | [version, analysis, generation, detection, metrics] =>
    some {
      version := ← Value.orElse Value.text? "1.0" version
      analysis := ← Value.orElse analysisSettings? {} analysis
      generation := ← Value.orElse generationSettings? {} generation
      detection := ← Value.orElse detectionSettings? {} detection
      metrics := ← Value.orElse metricsSettings? {} metrics }
  | _ => none

end AgentFlow.Wire
