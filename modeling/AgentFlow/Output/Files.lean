import AgentFlow.Files.Tree
import AgentFlow.Output.Documents
import AgentFlow.Output.Flow
import AgentFlow.Output.Interface
import AgentFlow.Output.Nodes
import AgentFlow.Output.Tests
import AgentFlow.Output.Utility
import AgentFlow.Settings.Basic
import AgentFlow.Workflow.Validation

/-!
# Generated files

All files of a workflow by their paths.  A specification is validated before anything is generated.
-/

namespace AgentFlow

open Data

abbrev FileSet := SortedMap String String

namespace WorkflowSpec

variable (w : WorkflowSpec)

def fixedFiles : List (String × String) :=
  [("docs/design.md", w.designDocument),
    ("schemas/models.py", w.modelsFile),
    ("nodes.py", w.nodesFile),
    ("flow.py", w.flowFile),
    ("tests/test_nodes.py", w.nodeTestsFile),
    ("tests/test_flow.py", w.flowTestsFile),
    ("tasks.md", w.tasksFile),
    ("requirements.txt", w.requirementsFile)]

def utilityFiles : List (String × String) :=
  w.utilities.map fun u => ("utils/" ++ u.name ++ ".py", u.file)

def interfaceFiles : List (String × String) :=
  if w.fastApi then
    [("main.py", w.mainFile), ("router.py", w.routerFile), ("tests/test_api.py", w.apiTestsFile)]
  else []

def files : FileSet := .ofList (w.fixedFiles ++ w.utilityFiles ++ w.interfaceFiles)

def generate : Except SpecFault FileSet := do
  w.validate
  .ok w.files

def outputDirectory (s : GenerationSettings) : String :=
  Files.joinPath s.workflowsDirectory w.directoryName

end WorkflowSpec

end AgentFlow
