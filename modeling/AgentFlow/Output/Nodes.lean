import AgentFlow.Output.Names
import AgentFlow.Text.Distinct

/-!
# Generated nodes

The file with one class for each node.  A node reads the result of the node before it, and the first
one reads the input; the last one stores the output.
-/

namespace AgentFlow.Output

structure NodePlan where
  node : NodeSpec
  inputKey : String
  isLast : Bool

def plansFrom (inputKey : String) : List NodeSpec → List NodePlan
  | [] => []
  | n :: rest => ⟨n, inputKey, rest.isEmpty⟩ :: plansFrom n.resultKey rest

def inputKey : String := "input"

def outputKey : String := "output"

def NodePlan.outputKeys (p : NodePlan) : List String :=
  p.node.resultKey :: if p.isLast then [outputKey] else []

def NodePlan.lines (p : NodePlan) : List String :=
  let n := p.node
  let def' := if n.kind.isAsync then "    async def " else "    def "
  let ending := if n.kind.isAsync then "_async" else ""
  ["class " ++ n.name ++ "(" ++ n.kind.name ++ "):",
    "    " ++ docString (docText n.summary),
    "",
    def' ++ "prep" ++ ending ++ "(self, shared):",
    "        return shared.get(" ++ Text.quoted p.inputKey ++ ")" ++
      (if n.kind.isBatch then " or []" else ""),
    "",
    def' ++ "exec" ++ ending ++ "(self, " ++ (if n.kind.isBatch then "item" else "prep_res") ++
      "):",
    "        raise NotImplementedError(" ++ Text.quoted (n.name ++ ".exec" ++ ending) ++ ")",
    "",
    def' ++ "post" ++ ending ++ "(self, shared, prep_res, exec_res):"] ++
    p.outputKeys.map (fun k => "        shared[" ++ Text.quoted k ++ "] = exec_res") ++
    ["        return \"default\""]

end AgentFlow.Output

namespace AgentFlow.WorkflowSpec

open Output

variable (w : WorkflowSpec)

def plans : List NodePlan := plansFrom inputKey w.nodes

def nodeClasses : List String := Text.distinctSorted (w.nodes.map (·.kind.name))

def nodesFile : String :=
  Text.unlines
    ([docString ("Node definitions for " ++ docText w.name ++ "."), "",
      "from pocketflow import " ++ commas w.nodeClasses] ++
      w.plans.flatMap fun p => ["", ""] ++ p.lines)

end AgentFlow.WorkflowSpec
