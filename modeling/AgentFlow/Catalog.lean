import AgentFlow.Workflow.Spec

/-!
# Catalog of nodes and utilities

The nodes and the helper functions that each pattern and each scaffold suggests.  A composed pattern
has none of its own and takes those of `workflow`.
-/

namespace AgentFlow.Catalog

/-! ## Nodes -/

def nodes : Pattern → List NodeSpec
  | .rag => [
    .of "DocumentLoader" .batchNode "Load and chunk source documents",
    .of "EmbeddingGenerator" .asyncBatchNode "Embed document chunks for indexing",
    .of "QueryProcessor" .node "Normalize the user query",
    .of "DocumentRetriever" .asyncNode "Retrieve the most relevant chunks",
    .of "ResponseGenerator" .asyncNode "Generate an answer grounded in retrieved context"]
  | .agent => [
    .of "TaskAnalyzer" .node "Understand the task and current context",
    .of "ActionPlanner" .asyncNode "Decide the next action to take",
    .of "ActionExecutor" .asyncNode "Carry out the chosen action",
    .of "ResultEvaluator" .node "Judge whether the goal has been reached",
    .of "ResponseGenerator" .asyncNode "Summarize the outcome for the user"]
  | .tool => [
    .of "InputValidator" .node "Validate the incoming request",
    .of "ToolSelector" .node "Pick the tool that fits the request",
    .of "ToolExecutor" .asyncNode "Invoke the selected tool",
    .of "ResultFormatter" .node "Shape the tool result for the caller"]
  | .mapReduce => [
    .of "DataSplitter" .node "Split the input into independent chunks",
    .of "ChunkMapper" .batchNode "Process each chunk independently",
    .of "ResultReducer" .node "Reduce mapped results into one value",
    .of "OutputFormatter" .node "Format the reduced result"]
  | .multiAgent => [
    .of "TaskDecomposer" .node "Break the task into specialist assignments",
    .of "AgentCoordinator" .asyncNode "Dispatch assignments to specialists",
    .of "SpecialistAgent" .asyncNode "Solve one assignment",
    .of "ConsensusBuilder" .node "Merge specialist answers into a consensus",
    .of "ResponseGenerator" .node "Present the agreed answer"]
  | .structuredOutput => [
    .of "InputParser" .node "Read the raw input",
    .of "PromptBuilder" .node "Build a prompt describing the target schema",
    .of "StructuredGenerator" .asyncNode "Generate schema-shaped output",
    .of "OutputValidator" .node "Validate output against the schema"]
  | .workflow | .hybrid => [
    .of "InputValidator" .node "Validate workflow input",
    .of "TaskProcessor" .node "Run the main processing step",
    .of "ResultAggregator" .node "Combine intermediate results",
    .of "OutputFormatter" .node "Format the final output"]

def scaffoldNodes : Scaffold → List NodeSpec
  | .simpleWorkflow => [
    .of "InputProcessor" .node "Read and validate the input",
    .of "BusinessLogic" .node "Apply the core business rule",
    .of "OutputFormatter" .node "Format the result"]
  | .basicApi => [
    .of "RequestParser" .node "Parse the incoming request",
    .of "RequestHandler" .node "Handle the request",
    .of "ResponseFormatter" .node "Build the response payload"]
  | .simpleEtl => [
    .of "DataExtractor" .node "Extract records from the source",
    .of "DataTransformer" .node "Transform records into the target shape",
    .of "DataLoader" .node "Load records into the destination"]

/-! ## Utilities -/

def callModel : UtilitySpec :=
  ⟨"call_llm", "Send a prompt to the language model and return its reply", [⟨"prompt", "str"⟩],
    "str"⟩

def utilities : Pattern → List UtilitySpec
  | .rag => [
    ⟨"retrieve_documents", "Return the documents most similar to a query",
      [⟨"query", "str"⟩, ⟨"top_k", "int"⟩], "list[str]"⟩,
    ⟨"call_llm_analyzer", "Answer a question from retrieved context with the language model",
      [⟨"question", "str"⟩, ⟨"context", "list[str]"⟩], "str"⟩,
    ⟨"get_embedding", "Embed a piece of text",
      [⟨"text", "str"⟩], "list[float]"⟩]
  | .agent => [
    callModel,
    ⟨"execute_action", "Run one named action with its parameters",
      [⟨"action", "str"⟩, ⟨"params", "dict"⟩], "dict"⟩]
  | .tool => [
    ⟨"call_external_api", "Call an external service endpoint",
      [⟨"endpoint", "str"⟩, ⟨"payload", "dict"⟩], "dict"⟩,
    callModel]
  | .mapReduce => [
    ⟨"split_into_chunks", "Split a collection into fixed-size chunks",
      [⟨"items", "list"⟩, ⟨"chunk_size", "int"⟩], "list[list]"⟩,
    callModel]
  | .multiAgent => [
    callModel,
    ⟨"send_agent_message", "Deliver a message to another agent and return its reply",
      [⟨"agent_id", "str"⟩, ⟨"message", "str"⟩], "str"⟩]
  | .structuredOutput => [
    callModel,
    ⟨"parse_structured_output", "Parse a model reply into a dictionary",
      [⟨"raw", "str"⟩], "dict"⟩]
  | .workflow | .hybrid => [
    callModel,
    ⟨"validate_input", "Check workflow input against required fields",
      [⟨"data", "dict"⟩], "bool"⟩]

def scaffoldUtilities : Scaffold → List UtilitySpec
  | .simpleWorkflow => [
    ⟨"flow_controller", "Pick the next step for the given input",
      [⟨"step", "str"⟩, ⟨"data", "dict"⟩], "str"⟩,
    ⟨"state_manager", "Read a persisted value by key",
      [⟨"key", "str"⟩], "Any"⟩]
  | .basicApi => [
    ⟨"request_parser", "Turn a raw request body into typed fields",
      [⟨"body", "dict"⟩], "dict"⟩,
    ⟨"response_formatter", "Wrap a result into a response payload",
      [⟨"result", "Any"⟩], "dict"⟩]
  | .simpleEtl => [
    ⟨"read_source", "Read raw records from a source location",
      [⟨"source", "str"⟩], "list[dict]"⟩,
    ⟨"write_destination", "Write records to a destination location",
      [⟨"destination", "str"⟩, ⟨"records", "list[dict]"⟩], "int"⟩]

/-! ## Composition -/

/-- The members whose key is not yet in `seen`, the first of each key. -/
def firstOfKey {α : Type} (key : α → String) (seen : List String) : List α → List α
  | [] => []
  | x :: rest =>
    if seen.contains (key x) then firstOfKey key seen rest
    else x :: firstOfKey key (key x :: seen) rest

def originNodes (p : Pattern) : List NodeSpec :=
  (nodes p).map fun n => { n with origin := some p }

/-- The nodes of several patterns, the first of each name, marked with the pattern they are from. -/
def composeNodes (patterns : List Pattern) : List NodeSpec :=
  firstOfKey (·.name) [] (patterns.flatMap originNodes)

def composeUtilities (patterns : List Pattern) : List UtilitySpec :=
  firstOfKey (·.name) [] (patterns.flatMap utilities)

/-- The nodes for a written name: of a pattern, else of a scaffold, else of `workflow`. -/
def nodesByName (name : String) : List NodeSpec :=
  match Pattern.parse? name with
  | some p => nodes p
  | none =>
    match Scaffold.parse? name with
    | some s => scaffoldNodes s
    | none => nodes .workflow

end AgentFlow.Catalog
