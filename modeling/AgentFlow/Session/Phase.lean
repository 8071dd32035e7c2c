/-!
# Phases of a planning session

A session goes through its phases one by one; only a revision leads back.
-/

namespace AgentFlow

inductive Phase where
  | patternAnalysis
  | orchestratorPlanning
  | templateGeneration
  | validation
  | completion
  deriving DecidableEq, Inhabited

namespace Phase

def all : List Phase :=
  [patternAnalysis, orchestratorPlanning, templateGeneration, validation, completion]

def name : Phase → String
  | patternAnalysis => "PATTERN_ANALYSIS"
  | orchestratorPlanning => "ORCHESTRATOR_PLANNING"
  | templateGeneration => "TEMPLATE_GENERATION"
  | validation => "VALIDATION"
  | completion => "COMPLETION"

def ofName? (s : String) : Option Phase := all.find? (·.name == s)

def next? : Phase → Option Phase
  | patternAnalysis => some orchestratorPlanning
  | orchestratorPlanning => some templateGeneration
  | templateGeneration => some validation
  | validation => some completion
  | completion => none

end Phase

inductive SessionFault where
  | notNext (source target : Phase)
  | noRevision (phase : Phase)
  | tooLateToRevise (phase : Phase)
  | tooLateForOverrides
  | unfinished (phase : Phase)
  deriving DecidableEq

def SessionFault.message : SessionFault → String
  | notNext source target => "cannot move from " ++ source.name ++ " to " ++ target.name
  | noRevision phase => "revision is not possible from " ++ phase.name
  | tooLateToRevise phase =>
    "recommendation can only change during " ++ Phase.patternAnalysis.name ++
      ", current phase is " ++ phase.name
  | tooLateForOverrides => "overrides cannot be applied after completion"
  | unfinished phase => "session is still in " ++ phase.name

end AgentFlow
