import AgentFlow.Command.Activity
import AgentFlow.Recommendation.Recommend
import AgentFlow.Settings.Load

/-!
# The context of a command

The settings that a command runs with, and the record of runs that it adds to.  Settings that cannot
be loaded stop a command; a record that cannot be opened only goes without.
-/

namespace AgentFlow

/-- The recommender that settings ask for, at a stage of work if one is stated. -/
def Settings.recommender (s : Settings) (stage : Option Stage) : Recommender Float32 :=
  { scorer := .standard s.analysis.combinationThreshold
    stage := stage.getD s.analysis.stage
    secondaryThreshold := s.analysis.secondaryThreshold
    ambiguityRatio := s.analysis.ambiguityRatio
    fastApi := s.generation.fastApi }

/-- The text of a requirement without the blanks around it; it must not be blank. -/
def requireText (text : String) : Except Fault String :=
  if Text.hasInk text then .ok (Text.trim text) else .error .emptyRequirement

def Environment.recordFile (env : Environment) (s : Settings) : String :=
  env.resolve s.metrics.databasePath

namespace Command

inductive OutputForm where
  | text
  | json
  deriving DecidableEq

/-- What a command that records its runs starts with. -/
structure Context where
  settings : Settings
  /-- The file of the record of runs, if there is one to add to. -/
  record : Option String

def loadSettings (env : Environment) : Activity Settings := do
  Activity.require (Settings.load (← Activity.tree) env)

def openRecord (env : Environment) (s : Settings) : Activity (Option String) := do
  if s.metrics.enabled then
    try
      let _ ← Activity.onDisk (RunLog.openFile (env.recordFile s))
      return some (env.recordFile s)
    catch _ => return none
  else return none

def Context.load (env : Environment) : Activity Context := do
  let settings ← loadSettings env
  return ⟨settings, ← openRecord env settings⟩

end Command

end AgentFlow
