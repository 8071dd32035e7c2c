import AgentFlow.Workflow.Fault
import AgentFlow.Workflow.Identifier
import AgentFlow.Workflow.Spec

/-!
# Validation of specifications

`WorkflowSpec.validate` accepts the specifications that code can be generated from, and states the
first fault of all others.  Each part of a specification is checked in its order, together with the
names that came before it.
-/

namespace AgentFlow

open SpecFault

/-- Nothing if the condition holds, and else the fault. -/
def ensure (holds : Bool) (f : SpecFault) : Except SpecFault Unit :=
  if holds then .ok () else .error f

namespace NodeSpec

/-- Checks nodes after those with the names in `seen`. -/
def validateAll (seen : List String) : List NodeSpec → Except SpecFault Unit
  | [] => .ok ()
  | n :: rest => do
    ensure (isClassName n.name) (nodeNotIdentifier n.name)
    ensure (!importedClasses.contains n.name) (nodeShadowsClass n.name)
    ensure (!chartKeywords.contains n.name && n.name != errorHandler) (nodeReservedInDiagram n.name)
    ensure (!seen.contains n.name) (nodeRepeated n.name)
    validateAll (n.name :: seen) rest

end NodeSpec

namespace ParamSpec

/-- Checks parameters of a utility after those with the names in `seen`. -/
def validateAll (utility : String) (seen : List String) : List ParamSpec → Except SpecFault Unit
  | [] => .ok ()
  | p :: rest => do
    ensure (isFunctionName p.name) (parameterNotIdentifier p.name utility)
    ensure (!seen.contains p.name) (parameterRepeated p.name utility)
    ensure (isTypeText p.type) (parameterType p.type p.name)
    validateAll utility (p.name :: seen) rest

end ParamSpec

namespace UtilitySpec

/-- Checks utilities after those with the names in `seen`. -/
def validateAll (seen : List String) : List UtilitySpec → Except SpecFault Unit
  | [] => .ok ()
  | u :: rest => do
    ensure (isFunctionName u.name) (utilityNotIdentifier u.name)
    ParamSpec.validateAll u.name [] u.parameters
    ensure (isTypeText u.returnType) (.returnType u.returnType u.name)
    ensure (!seen.contains u.name) (utilityRepeated u.name)
    validateAll (u.name :: seen) rest

end UtilitySpec

/-- Checks the keys of the values that nodes share. -/
def validateKeys : List String → Except SpecFault Unit
  | [] => .ok ()
  | k :: rest => do
    ensure (isFunctionName k) (storeKey k)
    validateKeys rest

namespace EndpointSpec

def upperMethod (e : EndpointSpec) : String := Text.upper e.method

/-- Checks endpoints after those with the methods and paths in `seen`. -/
def validateAll (seen : List (String × String)) : List EndpointSpec → Except SpecFault Unit
  | [] => .ok ()
  | e :: rest => do
    ensure (httpMethods.contains e.upperMethod) (endpointMethod e.method)
    ensure (e.path.toList.head? == some '/') (endpointPath e.path)
    ensure (!seen.contains (e.upperMethod, e.path)) (endpointRepeated e.method e.path)
    validateAll ((e.upperMethod, e.path) :: seen) rest

end EndpointSpec

namespace EdgeSpec

/-- Checks transitions between the named nodes, after those with the sources and actions in
`seen`. -/
def validateAll (nodes : List String) (seen : List (String × String)) :
    List EdgeSpec → Except SpecFault Unit
  | [] => .ok ()
  | e :: rest => do
    ensure (nodes.contains e.source) (edgeUnknownNode e.source)
    ensure (nodes.contains e.target) (edgeUnknownNode e.target)
    ensure (isActionLabel e.action) (edgeAction e.action)
    ensure (e.action != errorAction) edgeErrorAction
    ensure (!seen.contains (e.source, e.action)) (edgeRepeated e.source e.action)
    validateAll nodes ((e.source, e.action) :: seen) rest

end EdgeSpec

/-- Whether a name of a directory stays where it is: it is no step within the tree and has no
separator. -/
def isPlainDirectory (s : String) : Bool :=
  s != "." && s != ".." && !s.toList.any fun c => c == '/' || c == '\\'

namespace WorkflowSpec

def nodeNames (w : WorkflowSpec) : List String := w.nodes.map (·.name)

/-- Nothing for a specification that code can be generated from, and else its first fault. -/
def validate (w : WorkflowSpec) : Except SpecFault Unit := do
  ensure (Text.hasInk w.name) blankName
  ensure (isPlainDirectory w.directoryName) (nameNotPlain w.name)
  ensure (!w.nodes.isEmpty) noNodes
  ensure (w.pattern != .hybrid || 2 ≤ w.basePatterns.length) tooFewBasePatterns
  NodeSpec.validateAll [] w.nodes
  UtilitySpec.validateAll [] w.utilities
  validateKeys w.sharedStore.keys
  EndpointSpec.validateAll [] w.endpoints
  EdgeSpec.validateAll w.nodeNames [] w.edges

end WorkflowSpec

end AgentFlow
