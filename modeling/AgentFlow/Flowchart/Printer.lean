import AgentFlow.Workflow.Identifier
import AgentFlow.Workflow.Spec

/-!
# Drawing a workflow

`WorkflowSpec.flowchart` draws a workflow as a flow chart: its nodes, grouped by the patterns that
they are from, the error handler, the transitions, and from every node the way to the error handler.
-/

namespace AgentFlow

namespace NodeSpec

def declaration (n : NodeSpec) : String :=
  n.name ++ "[\"" ++ n.name ++ " (" ++ n.kind.name ++ ")\"]"

end NodeSpec

namespace WorkflowSpec

variable (w : WorkflowSpec)

def groupLines (p : Pattern) : List String :=
  match w.nodes.filter (·.origin == some p) with
  | [] => []
  | ns =>
    ("    subgraph " ++ Text.lower p.name ++ "_nodes[\"" ++ p.name ++ "\"]") ::
      ns.map (fun n => "        " ++ n.declaration) ++ ["    end"]

/-- The lines that declare the nodes: first those of no particular origin. -/
def nodeLines : List String :=
  (w.nodes.filter (·.origin == none)).map (fun n => "    " ++ n.declaration) ++
    Pattern.all.flatMap w.groupLines

def flowchartLines : List String :=
  "flowchart TD" :: w.nodeLines ++
    ["    " ++ errorHandler ++ "([\"" ++ errorHandler ++ "\"])"] ++
    w.resolvedEdges.map (fun e => "    " ++ e.source ++ " -->|" ++ e.action ++ "| " ++ e.target) ++
    w.nodes.map fun n => "    " ++ n.name ++ " -.->|" ++ errorAction ++ "| " ++ errorHandler

def flowchart : String := "\n".intercalate w.flowchartLines

end WorkflowSpec

end AgentFlow
