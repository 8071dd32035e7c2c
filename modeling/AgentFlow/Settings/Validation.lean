import AgentFlow.Fault
import AgentFlow.Files.Glob
import AgentFlow.Number.Single
import AgentFlow.Settings.Basic

/-!
# Validation of settings

Ratios lie between zero and one, limits are greater than zero, the directory of workflows has a
name, and all exclude patterns can be read.  The first violation in this order is the answer.
-/

namespace AgentFlow

namespace Settings

def ratios (s : Settings) : List (String × Float32) :=
  [("analysis.secondary_threshold", s.analysis.secondaryThreshold),
    ("analysis.combination_threshold", s.analysis.combinationThreshold),
    ("analysis.ambiguity_ratio", s.analysis.ambiguityRatio)]

def limits (s : Settings) : List (String × Nat) :=
  [("detection.max_exec_lines", s.detection.maxExecLines),
    ("detection.max_prep_post_lines", s.detection.maxPrepPostLines),
    ("detection.min_utility_branches", s.detection.minUtilityBranches)]

def ratioFault? (entry : String × Float32) : Option SettingsFault :=
  if 0 ≤ entry.2 ∧ entry.2 ≤ 1 then none
  else some (.ratio entry.1 (Number.Single.plain entry.2))

def limitFault? (entry : String × Nat) : Option SettingsFault :=
  if entry.2 = 0 then some (.zeroLimit entry.1) else none

def directoryFault? (directory : String) : Option SettingsFault :=
  if directory.isEmpty then some .noWorkflowsDirectory else none

def excludeFault? (pattern : String) : Option SettingsFault :=
  match Files.Glob.parse? pattern with
  | .ok _ => none
  | .error fault => some (.excludePattern pattern fault)

/-- Everything that is wrong with settings, in order. -/
def faults (s : Settings) : List SettingsFault :=
  s.ratios.filterMap ratioFault? ++ s.limits.filterMap limitFault? ++
    (directoryFault? s.generation.workflowsDirectory).toList ++
    s.detection.exclude.filterMap excludeFault?

/-- Refuses settings with the first thing that is wrong with them. -/
def validate (s : Settings) : Except Fault Unit :=
  match s.faults with
  | [] => .ok ()
  | fault :: _ => .error (.settings fault)

end Settings

end AgentFlow
