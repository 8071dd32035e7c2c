import AgentFlow.Output.Names

/-!
# The generated flow

The file with the class that joins the nodes: a table of the nodes, and for each node a table from
actions to the nodes that they lead to, always with the way to the error handler.
-/

namespace AgentFlow.WorkflowSpec

open Output

variable (w : WorkflowSpec)

def routes (node : String) : List (String × String) :=
  (w.resolvedEdges.filter (·.source == node)).map (fun e => (e.action, e.target)) ++
    [(errorAction, errorHandler)]

def routeTable : List (String × List (String × String)) :=
  w.nodes.map fun n => (n.name, w.routes n.name)

def routeLine (entry : String × List (String × String)) : String :=
  "            " ++ Text.quoted entry.1 ++ ": \x7b" ++
    commas (entry.2.map fun r => Text.quoted r.1 ++ ": " ++ Text.quoted r.2) ++ "\x7d,"

def flowBase : String := if w.hasAsync then "AsyncFlow" else "Flow"

def flowImports : List String := w.flowBase :: w.nodes.map (·.name)

def runLines : List String :=
  let (header, call) :=
    if w.hasAsync then
      ("    async def run_async(self, shared):", "await self.build().run_async(shared)")
    else ("    def run(self, shared):", "self.build().run(shared)")
  [header,
    "        try:",
    "            return " ++ call,
    "        except NotImplementedError:",
    "            raise",
    "        except Exception as error:",
    "            return self." ++ errorHandler ++ "(shared, error)"]

def flowFile : String :=
  Text.unlines
    ([docString ("Flow graph for " ++ docText w.name ++ "."),
      "",
      "from pocketflow import " ++ w.flowBase,
      "",
      "from nodes import " ++ commas (w.nodes.map (·.name)),
      "",
      "",
      "class " ++ w.flowClass ++ ":",
      "    " ++ docString ("Wires the " ++ docText w.name ++ " nodes into a flow graph."),
      "",
      "    def __init__(self):",
      "        self.nodes = \x7b"] ++
      w.nodes.map (fun n => "            " ++ Text.quoted n.name ++ ": " ++ n.name ++ "(),") ++
      ["        \x7d", "        self.edges = \x7b"] ++
      w.routeTable.map routeLine ++
      ["        \x7d",
        "",
        "    def build(self):",
        "        \"\"\"Connect nodes by action and return the runnable flow.\"\"\"",
        "        for source, routes in self.edges.items():",
        "            for action, target in routes.items():",
        "                if target == " ++ Text.quoted errorHandler ++ ":",
        "                    continue",
        "                self.nodes[source] - action >> self.nodes[target]",
        "        return " ++ w.flowBase ++ "(start=self.nodes[" ++
          Text.quoted ((w.nodes.head?.map (·.name)).getD "") ++ "])",
        "",
        "    def " ++ errorHandler ++ "(self, shared, error):",
        "        \"\"\"Record a failed step in the shared store.\"\"\"",
        "        shared[\"error\"] = str(error)",
        "        return \"error\"",
        ""] ++
      w.runLines)

end AgentFlow.WorkflowSpec
