import AgentFlow.Output.Names

/-!
# Generated tests

The files of tests for the nodes, the flow and the interface.
-/

namespace AgentFlow

open Output

def NodeSpec.testLines (n : NodeSpec) : List String :=
  let name := snakeCase n.name
  let (post, exec) :=
    if n.kind.isAsync then
      ("asyncio.run(node.post_async(shared, None, \"result\"))",
        "asyncio.run(" ++ n.name ++ "().exec_async(None))")
    else ("node.post(shared, None, \"result\")", n.name ++ "().exec(None)")
  ["def test_" ++ name ++ "_post_stores_result():",
    "    node = " ++ n.name ++ "()",
    "    shared = \x7b\x7d",
    "    action = " ++ post,
    "    assert action == \"default\"",
    "    assert shared[" ++ Text.quoted n.resultKey ++ "] == \"result\"",
    "",
    "",
    "def test_" ++ name ++ "_exec_is_pending():",
    "    with pytest.raises(NotImplementedError):",
    "        " ++ exec]

def EndpointSpec.testLines (e : EndpointSpec) : List String :=
  ("def test_" ++ e.handler ++ "():") ::
    if e.lowerMethod == "get" then
      ["    response = client.get(" ++ Text.quoted e.path ++ ")",
        "    assert response.status_code == 200"]
    else
      ["    response = client." ++ e.lowerMethod ++ "(" ++ Text.quoted e.path ++
          ", json=\x7b\"input\": \"example\"\x7d)",
        "    # 501 until every node's exec is implemented",
        "    assert response.status_code in (200, 501)"]

namespace WorkflowSpec

variable (w : WorkflowSpec)

def nodeTestsFile : String :=
  Text.unlines
    ([docString ("Node tests for " ++ docText w.name ++ "."), ""] ++
      (if w.hasAsync then ["import asyncio", ""] else []) ++
      ["import pytest", "", "from nodes import " ++ commas (w.nodes.map (·.name))] ++
      w.nodes.flatMap fun n => ["", ""] ++ n.testLines)

def flowTestsFile : String :=
  Text.unlines
    [docString ("Flow tests for " ++ docText w.name ++ "."),
      "",
      "from flow import " ++ w.flowClass,
      "",
      "",
      "def test_flow_registers_every_node():",
      "    flow = " ++ w.flowClass ++ "()",
      "    assert list(flow.nodes) == [" ++ commas (w.nodes.map fun n => Text.quoted n.name) ++ "]",
      "",
      "",
      "def test_every_step_routes_errors():",
      "    flow = " ++ w.flowClass ++ "()",
      "    assert set(flow.edges) == set(flow.nodes)",
      "    assert all(routes[\"error\"] == \"error_handler\" for routes in flow.edges.values())",
      "",
      "",
      "def test_error_handler_records_failure():",
      "    flow = " ++ w.flowClass ++ "()",
      "    shared = \x7b\x7d",
      "    assert flow.error_handler(shared, ValueError(\"boom\")) == \"error\"",
      "    assert shared[\"error\"] == \"boom\""]

def apiTestsFile : String :=
  Text.unlines
    ([docString ("API tests for " ++ docText w.name ++ "."),
      "",
      "from fastapi.testclient import TestClient",
      "",
      "from main import app",
      "",
      "client = TestClient(app)",
      "",
      "",
      "def test_health():",
      "    response = client.get(\"/health\")",
      "    assert response.status_code == 200"] ++
      w.servedEndpoints.flatMap fun e => ["", ""] ++ e.testLines)

end WorkflowSpec

end AgentFlow
