import AgentFlow.Flowchart.Printer
import AgentFlow.Output.Names

/-!
# Generated documents

The design document with the flow chart, the list of tasks and the list of required packages.
-/

namespace AgentFlow.Output

/-- A text for a cell of a table: on one line, with bars escaped, and a dash for nothing. -/
def cell (s : String) : String :=
  let s := Text.collapse s
  if s.isEmpty then "-" else Text.replaceChars (· == '|') ['\\', '|'] s

def row (cells : List String) : String := "| " ++ " | ".intercalate cells ++ " |"

def tableSection (title : String) (columns : List String) (rows : List (List String)) :
    List String :=
  ["", "## " ++ title, "", row columns,
    "|" ++ String.join (columns.map fun _ => "---|")] ++ rows.map row

end AgentFlow.Output

namespace AgentFlow.WorkflowSpec

open Output

variable (w : WorkflowSpec)

def designDocument : String :=
  Text.unlines
    (["# " ++ Text.trim w.name, ""] ++
      (if Text.hasInk w.description then [Text.trim w.description, ""] else []) ++
      ["**Pattern:** " ++ w.pattern.name] ++
      (if w.pattern == .hybrid then
        ["", "**Composed from:** " ++ " + ".intercalate (w.basePatterns.map (·.name))]
      else []) ++
      ["", "## Flow", "", "```mermaid", w.flowchart, "```"] ++
      tableSection "Nodes" ["Node", "Type", "Description"]
        (w.nodes.map fun n => [n.name, n.kind.name, cell n.description]) ++
      (if w.utilities.isEmpty then []
      else
        tableSection "Utilities" ["Function", "Parameters", "Returns", "Description"]
          (w.utilities.map fun u =>
            ["`" ++ u.name ++ "`", cell (commas u.parameterItems), cell u.returnType,
              cell u.description])) ++
      (if w.sharedStore.isEmpty then []
      else
        tableSection "Shared Store" ["Key", "Type"]
          (w.sharedStore.entries.map fun (k, t) => ["`" ++ k ++ "`", cell t])) ++
      if w.fastApi then
        tableSection "API Endpoints" ["Method", "Path", "Description"]
          (w.servedEndpoints.map fun e =>
            [Text.upper e.method, "`" ++ e.path ++ "`", cell e.description])
      else [])

/-- The list of what is left to do. -/
def tasksFile : String :=
  Text.unlines
    (["# Tasks: " ++ Text.trim w.name, "", "## Utilities", ""] ++
      (if w.utilities.isEmpty then ["- [ ] No utilities declared"]
      else
        w.utilities.map fun u =>
          "- [ ] Implement `utils/" ++ u.name ++ ".py` and run it standalone") ++
      ["", "## Nodes", ""] ++
      w.nodes.map (fun n =>
        "- [ ] `" ++ n.name ++ "." ++ (if n.kind.isAsync then "exec_async" else "exec") ++
          "`: compute `" ++ snakeCase n.name ++ "_result` from the prepared input") ++
      ["", "## Integration", "", "- [ ] Run `pytest tests/`"] ++
      (if w.fastApi then ["- [ ] Start the API with `python main.py` and call each endpoint"]
      else []) ++
      ["- [ ] Run `pocketforge detect .` and resolve CRITICAL/HIGH findings"])

/-- The list of packages that the generated code needs. -/
def requirementsFile : String :=
  Text.unlines
    (if w.fastApi then ["fastapi", "httpx", "pocketflow", "pydantic>=2.0", "pytest", "uvicorn"]
    else ["pocketflow", "pydantic>=2.0", "pytest"])

end AgentFlow.WorkflowSpec
