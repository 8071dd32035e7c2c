import AgentFlow.Pattern

/-!
# Indicators

The tables that requirements are read with.  A phrase is looked for in the lower-case text, so a
stem such as `embedding` also finds its plural.  One phrase may speak for several patterns.
-/

namespace AgentFlow

/-- A phrase that speaks for a pattern. -/
structure Indicator where
  phrase : String
  weight : Float32

/-- What a stage of work multiplies the weights of a pattern with. -/
structure StageWeights where
  planProduct : Float32 := 1.0
  createSpec : Float32 := 1.0
  executeTasks : Float32 := 1.0

def StageWeights.at (w : StageWeights) : Stage → Float32
  | .planProduct => w.planProduct
  | .createSpec => w.createSpec
  | .executeTasks => w.executeTasks

structure IndicatorTable where
  pattern : Pattern
  indicators : List Indicator
  weights : StageWeights

def ragIndicators : IndicatorTable where
  pattern := .rag
  indicators := [
    ⟨"retrieval-augmented", 1.2⟩, ⟨"knowledge base", 1.0⟩, ⟨"retrieval", 1.0⟩, ⟨"retrieve", 1.0⟩,
    ⟨"vector", 1.0⟩, ⟨"embedding", 1.0⟩, ⟨"document", 0.8⟩, ⟨"search", 0.8⟩, ⟨"semantic", 0.8⟩,
    ⟨"question answering", 0.8⟩, ⟨"similarity", 0.6⟩, ⟨"corpus", 0.6⟩, ⟨"faq", 0.6⟩,
    ⟨"citation", 0.6⟩]
  weights := {}

def agentIndicators : IndicatorTable where
  pattern := .agent
  indicators := [
    ⟨"autonomous", 1.0⟩, ⟨"agent", 1.0⟩, ⟨"decide", 0.8⟩, ⟨"decision", 0.8⟩, ⟨"action", 0.8⟩,
    ⟨"reasoning", 0.6⟩, ⟨"planning", 0.6⟩, ⟨"choose", 0.6⟩, ⟨"adapt", 0.6⟩, ⟨"goal", 0.6⟩,
    ⟨"self-directed", 0.8⟩]
  weights := { planProduct := 1.1 }

def toolIndicators : IndicatorTable where
  pattern := .tool
  indicators := [
    ⟨"function call", 1.0⟩, ⟨"tool", 1.0⟩, ⟨"external service", 0.8⟩, ⟨"integrate", 0.8⟩,
    ⟨"integration", 0.8⟩, ⟨"api", 0.8⟩, ⟨"calculator", 0.8⟩, ⟨"webhook", 0.6⟩,
    ⟨"third-party", 0.6⟩, ⟨"weather", 0.6⟩, ⟨"fetch", 0.6⟩, ⟨"database query", 0.6⟩,
    ⟨"search", 0.3⟩]
  weights := { executeTasks := 1.2 }

def workflowIndicators : IndicatorTable where
  pattern := .workflow
  indicators := [
    ⟨"workflow", 1.0⟩, ⟨"pipeline", 0.8⟩, ⟨"step", 0.8⟩, ⟨"sequential", 0.8⟩, ⟨"stage", 0.6⟩,
    ⟨"process", 0.6⟩, ⟨"approval", 0.6⟩, ⟨"automate", 0.6⟩, ⟨"automation", 0.6⟩,
    ⟨"onboarding", 0.6⟩]
  weights := { executeTasks := 1.1 }

def mapReduceIndicators : IndicatorTable where
  pattern := .mapReduce
  indicators := [
    ⟨"map-reduce", 1.2⟩, ⟨"mapreduce", 1.2⟩, ⟨"map reduce", 1.2⟩, ⟨"large dataset", 1.0⟩,
    ⟨"millions of", 0.8⟩, ⟨"batch", 0.8⟩, ⟨"parallel", 0.8⟩, ⟨"aggregate", 0.8⟩, ⟨"chunk", 0.8⟩,
    ⟨"thousands of", 0.6⟩, ⟨"bulk", 0.6⟩, ⟨"distributed", 0.6⟩]
  weights := { planProduct := 1.1 }

/-- Phrases that speak for `multiAgent`. -/
def multiAgentIndicators : IndicatorTable where
  pattern := .multiAgent
  indicators := [
    ⟨"multi-agent", 1.2⟩, ⟨"multi agent", 1.2⟩, ⟨"multiple agents", 1.2⟩,
    ⟨"specialized agents", 1.0⟩, ⟨"specialist", 0.8⟩, ⟨"collaborate", 0.8⟩,
    ⟨"collaboration", 0.8⟩, ⟨"coordinate", 0.8⟩, ⟨"coordination", 0.8⟩, ⟨"consensus", 0.8⟩,
    ⟨"team of", 0.6⟩, ⟨"debate", 0.6⟩, ⟨"roles", 0.6⟩]
  weights := { planProduct := 1.2 }

/-- Phrases that speak for `structuredOutput`. -/
def structuredOutputIndicators : IndicatorTable where
  pattern := .structuredOutput
  indicators := [
    ⟨"structured", 1.0⟩, ⟨"json", 0.8⟩, ⟨"schema", 0.8⟩, ⟨"extract", 0.8⟩, ⟨"parse", 0.6⟩,
    ⟨"yaml", 0.6⟩, ⟨"classify", 0.6⟩, ⟨"classification", 0.6⟩, ⟨"invoice", 0.6⟩,
    ⟨"entities", 0.6⟩]
  weights := { executeTasks := 1.2 }

/-- The tables of the base patterns, in declaration order. -/
def indicatorTables : List IndicatorTable := [
  ragIndicators, agentIndicators, toolIndicators, workflowIndicators, mapReduceIndicators,
  multiAgentIndicators, structuredOutputIndicators]

/-- The table of a pattern; a composed pattern has none. -/
def indicatorTable? (p : Pattern) : Option IndicatorTable :=
  indicatorTables.find? (·.pattern == p)

/-! ## Signs of complexity -/

/-- Names of technology; several of them make a requirement demanding. -/
def technicalTerms : List String := [
  "postgres", "mysql", "mongodb", "sqlite", "redis", "kafka", "rabbitmq", "elasticsearch",
  "pinecone", "faiss", "chroma", "vector", "embedding", "docker", "kubernetes", "graphql",
  "websocket", "oauth", "openai", "anthropic", "llm", "fastapi", "langchain", "spark",
  "microservice"]

/-- Phrases that name a connection to another system. -/
def integrationPhrases : List String := [
  "integrate with", "integration with", "connect to", "connects to", "sync with", "third-party",
  "external api", "webhook"]

def multiStepPhrases : List String := [
  "multi-step", "multiple steps", "step by step", "step-by-step", "followed by", "after that",
  "and then", "finally"]

/-- Words of a requirement that means to be small. -/
def simplicityMarkers : List String := [
  "crud", "simple", "basic", "form", "minimal", "straightforward", "todo list"]

/-- Words that call for the scaffold of an interface. -/
def apiVocabulary : List String := [
  "api", "endpoint", "rest", "http", "request"]

/-- Words that call for the scaffold of a data transfer. -/
def etlVocabulary : List String := [
  "etl", "import", "export", "csv", "spreadsheet", "migrate", "load data"]

/-! ## Pairs of patterns -/

def synergyPairs : List (Pattern × Pattern) := [
  (.rag, .agent), (.rag, .tool), (.agent, .tool), (.rag, .structuredOutput), (.workflow, .tool),
  (.mapReduce, .rag), (.agent, .multiAgent), (.mapReduce, .structuredOutput)]

def conflictPairs : List (Pattern × Pattern) := [
  (.workflow, .multiAgent), (.mapReduce, .agent)]

/-- Whether a table of pairs lists `p` and `q`, in either order. -/
def listsPair (table : List (Pattern × Pattern)) (p q : Pattern) : Bool :=
  table.any fun (a, b) => (a == p && b == q) || (a == q && b == p)

def isSynergy (p q : Pattern) : Bool := listsPair synergyPairs p q

def isConflict (p q : Pattern) : Bool := listsPair conflictPairs p q

theorem listsPair_comm (table : List (Pattern × Pattern)) (p q : Pattern) :
    listsPair table p q = listsPair table q p := by
  simp [listsPair, Bool.or_comm]

end AgentFlow
