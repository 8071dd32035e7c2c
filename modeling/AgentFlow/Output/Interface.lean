import AgentFlow.Output.Names

/-!
# The generated interface

The files of data models, routes and the application that serves them.
-/

namespace AgentFlow.Output

def fieldLine (field : String × String) : String :=
  let hint := Text.trim field.2
  if hint.isEmpty || hint == "Any" then "    " ++ field.1 ++ ": Any = None"
  else "    " ++ field.1 ++ ": Optional[" ++ hint ++ "] = None"

end AgentFlow.Output

namespace AgentFlow

open Output

def EndpointSpec.summary (e : EndpointSpec) : String :=
  if e.description.isEmpty then Text.upper e.method ++ " " ++ e.path else e.description

namespace WorkflowSpec

variable (w : WorkflowSpec)

def storeLines : List String :=
  if w.sharedStore.isEmpty then ["    pass"] else w.sharedStore.entries.map fieldLine

def modelsFile : String :=
  Text.unlines
    ([docString ("Data models for " ++ docText w.name ++ "."),
      "",
      "from typing import Any, Optional",
      "",
      "from pydantic import BaseModel, Field",
      "",
      "",
      "class SharedStore(BaseModel):",
      "    \"\"\"Values exchanged between nodes through the shared store.\"\"\"",
      ""] ++
      w.storeLines ++
      ["",
        "",
        "class WorkflowRequest(BaseModel):",
        "    input: Any = Field(..., description=\"Workflow input\")",
        "",
        "",
        "class WorkflowResponse(BaseModel):",
        "    output: Any = None",
        "    error: Optional[str] = None"])

def handlerLines (e : EndpointSpec) : List String :=
  if e.lowerMethod == "get" then
    ["@router.get(" ++ Text.quoted e.path ++ ")",
      "async def " ++ e.handler ++ "() -> dict:",
      "    " ++ docString (docText e.summary),
      "    return \x7b\"workflow\": " ++ Text.quoted w.name ++ ", \"status\": \"ready\"\x7d"]
  else
    ["@router." ++ e.lowerMethod ++ "(" ++ Text.quoted e.path ++
        ", response_model=WorkflowResponse)",
      "async def " ++ e.handler ++ "(request: WorkflowRequest) -> WorkflowResponse:",
      "    " ++ docString (docText e.summary),
      "    shared = \x7b\"input\": request.input\x7d",
      "    flow = " ++ w.flowClass ++ "()",
      "    try:",
      if w.hasAsync then "        await flow.run_async(shared)" else "        flow.run(shared)",
      "    except NotImplementedError as exc:",
      "        raise HTTPException(status_code=501, detail=str(exc)) from exc",
      "    return WorkflowResponse(output=shared.get(\"output\"), error=shared.get(\"error\"))"]

def routerFile : String :=
  Text.unlines
    ([docString ("API routes for " ++ docText w.name ++ "."),
      "",
      "from fastapi import APIRouter, HTTPException",
      "",
      "from flow import " ++ w.flowClass,
      "from schemas.models import WorkflowRequest, WorkflowResponse",
      "",
      "router = APIRouter()"] ++
      w.servedEndpoints.flatMap fun e => ["", ""] ++ w.handlerLines e)

def mainFile : String :=
  Text.unlines
    [docString ("FastAPI application for " ++ docText w.name ++ "."),
      "",
      "from fastapi import FastAPI",
      "",
      "from router import router",
      "",
      "app = FastAPI(title=" ++ Text.quoted w.name ++ ", description=" ++
        Text.quoted w.description ++ ")",
      "app.include_router(router)",
      "",
      "",
      "@app.get(\"/health\")",
      "async def health() -> dict:",
      "    return \x7b\"status\": \"ok\"\x7d",
      "",
      "",
      "if __name__ == \"__main__\":",
      "    import uvicorn",
      "",
      "    uvicorn.run(app, host=\"0.0.0.0\", port=8000)"]

end WorkflowSpec

end AgentFlow
