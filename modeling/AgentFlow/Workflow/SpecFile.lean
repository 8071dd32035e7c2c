import AgentFlow.Files.Tree
import AgentFlow.Json.Reader
import AgentFlow.Text.Case
import AgentFlow.Wire.Workflow
import AgentFlow.Yaml.Reader

/-!
# Files for specifications

A specification is read from a file in JSON or YAML, as the extension of its name says.  It is not
validated here.
-/

namespace AgentFlow

open Files

def specOfText (format : Format) (text : String) : Except Fault WorkflowSpec :=
  let value :=
    match format with
    | .json => Json.read? text
    | .yaml => Yaml.read? text
  match value.bind Wire.spec? with
  | some w => .ok w
  | none => .error (.unreadable format)

/-- The format that an extension stands for, in whatever case. -/
def formatOf (extension : Option String) : Except Fault Format :=
  match extension.map Text.lower with
  | some "json" => .ok .json
  | some "yaml" => .ok .yaml
  | some "yml" => .ok .yaml
  | other => .error (.spec (.fileFormat other))

def readSpecFile (t : Tree) (path : String) : Except Fault WorkflowSpec := do
  let text ← t.readText? path
  let format ← formatOf (extension? ((steps path).getLastD ""))
  specOfText format text

end AgentFlow
