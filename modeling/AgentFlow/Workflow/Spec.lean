import AgentFlow.Pattern

/-!
# Workflow specifications

What a workflow to be generated consists of: nodes, helper functions, values that the nodes share,
endpoints and transitions.
-/

namespace AgentFlow

open Data

/-- How a node runs: one value or each of a batch, at once or asynchronously. -/
inductive NodeKind where
  | node
  | asyncNode
  | batchNode
  | asyncBatchNode
  deriving DecidableEq, Inhabited

namespace NodeKind

def all : List NodeKind := [node, asyncNode, batchNode, asyncBatchNode]

def name : NodeKind → String
  | node => "Node"
  | asyncNode => "AsyncNode"
  | batchNode => "BatchNode"
  | asyncBatchNode => "AsyncBatchNode"

def ofName? (s : String) : Option NodeKind := all.find? (·.name == s)

def isAsync (k : NodeKind) : Bool := k == asyncNode || k == asyncBatchNode

def isBatch (k : NodeKind) : Bool := k == batchNode || k == asyncBatchNode

end NodeKind

/-- A step of a workflow. -/
structure NodeSpec where
  name : String
  kind : NodeKind
  description : String
  /-- The pattern that the node is from, in a composed workflow. -/
  origin : Option Pattern
  deriving DecidableEq

def NodeSpec.of (name : String) (kind : NodeKind) (description : String) : NodeSpec :=
  ⟨name, kind, description, none⟩

structure ParamSpec where
  name : String
  type : String
  deriving DecidableEq

structure UtilitySpec where
  name : String
  description : String
  parameters : List ParamSpec
  returnType : String
  deriving DecidableEq

structure EndpointSpec where
  method : String
  path : String
  description : String
  deriving DecidableEq

/-- A transition between nodes, taken on an action. -/
structure EdgeSpec where
  source : String
  target : String
  action : String
  deriving DecidableEq

def defaultAction : String := "default"

/-- A workflow to be generated. -/
structure WorkflowSpec where
  name : String
  pattern : Pattern
  description : String := ""
  /-- The patterns of a composed workflow. -/
  basePatterns : List Pattern := []
  nodes : List NodeSpec := []
  utilities : List UtilitySpec := []
  /-- The values that nodes share, with their types. -/
  sharedStore : SortedMap String String := .empty
  endpoints : List EndpointSpec := []
  edges : List EdgeSpec := []
  fastApi : Bool := true
  deriving DecidableEq

namespace WorkflowSpec

/-- The default transitions from each name to the next. -/
def chain : List String → List EdgeSpec
  | a :: b :: rest => ⟨a, b, defaultAction⟩ :: chain (b :: rest)
  | _ => []

/-- The transitions of a workflow: the stated ones, or from each node to the next. -/
def resolvedEdges (w : WorkflowSpec) : List EdgeSpec :=
  if w.edges.isEmpty then chain (w.nodes.map (·.name)) else w.edges

/-- The name of the workflow's directory: its name in lower case, without blanks. -/
def directoryName (w : WorkflowSpec) : String :=
  Text.lower (String.ofList (w.name.toList.filter fun c => !Text.isBlank c))

def hasAsync (w : WorkflowSpec) : Bool := w.nodes.any (·.kind.isAsync)

end WorkflowSpec

end AgentFlow
