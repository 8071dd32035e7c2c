import AgentFlow.Files.Glob
import AgentFlow.Session.Phase
import AgentFlow.Workflow.Fault

/-!
# Faults

Why an operation is refused, over all parts of the library, and how that is said.
-/

namespace AgentFlow

inductive SettingsFault where
  /-- A ratio, written as the message shows it, lies outside of zero to one. -/
  | ratio (key value : String)
  | zeroLimit (key : String)
  | noWorkflowsDirectory
  /-- A pattern of paths to leave out cannot be read. -/
  | excludePattern (pattern : String) (fault : Files.GlobFault)
  | noGlobalDirectory
  | alreadyInitialized
  /-- The text or a value of the settings cannot be read. -/
  | unreadable
  deriving DecidableEq

/-- The message of a fault; there is none for settings that cannot be read. -/
def SettingsFault.message? : SettingsFault → Option String
  | ratio key value => some (key ++ " must be between 0.0 and 1.0, got " ++ value)
  | zeroLimit key => some (key ++ " must be greater than 0")
  | noWorkflowsDirectory => some "generation.workflows_dir must not be empty"
  | excludePattern pattern fault =>
    some ("Invalid exclude pattern '" ++ pattern ++ "': " ++ fault.message)
  | noGlobalDirectory => some "Cannot determine global config directory"
  | alreadyInitialized => some "Already initialized. Use --force to overwrite."
  | unreadable => none

inductive Format where
  | json
  | yaml
  deriving DecidableEq

inductive Fault where
  | emptyRequirement
  | emptyFeature
  /-- A file of a workflow would lie outside of its directory. -/
  | escapingPath (path : String)
  | unknownPattern (name : String)
  | spec (fault : SpecFault)
  | session (fault : SessionFault)
  | settings (fault : SettingsFault)
  /-- The generated code has so many findings that block it. -/
  | selfCheck (count : Nat)
  | storage (message : String)
  /-- A text in a data format cannot be read. -/
  | unreadable (format : Format)
  /-- The file system refuses. -/
  | io
  deriving DecidableEq

def patternChoices : String :=
  "RAG, AGENT, TOOL, WORKFLOW, MAPREDUCE, MULTI_AGENT, STRUCTURED_OUTPUT"

/-- The message of a fault, unless the format or the file system words it. -/
def Fault.message? : Fault → Option String
  | emptyRequirement => some "Invalid input: requirement text is empty"
  | emptyFeature => some "Invalid input: disabled feature name is empty"
  | escapingPath path =>
    some ("Invalid input: generated path '" ++ path ++ "' escapes the workflow directory")
  | unknownPattern name =>
    some ("Unknown pattern '" ++ name ++ "'. Valid values: " ++ patternChoices)
  | spec fault => some fault.message
  | session fault => some ("Coordination error: " ++ fault.message)
  | settings fault => fault.message?.map ("Config error: " ++ ·)
  | selfCheck count =>
    some ("Detection failed: " ++ toString count ++ " blocking violation(s) in generated code")
  | storage message => some ("Storage error: " ++ message)
  | unreadable _ => none
  | io => none

end AgentFlow
