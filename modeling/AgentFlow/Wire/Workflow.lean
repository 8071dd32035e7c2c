import AgentFlow.Wire.Recommendation
import AgentFlow.Workflow.Spec

/-!
# Workflow specifications as data

How specifications are written as values of data formats and read from them.  Reading fills in the
defaults: a plain node, a parameter of type `str`, an endpoint with method `POST`, a generated
interface.
-/

namespace AgentFlow.Wire

open Data

def nodeKind? (v : Value) : Option NodeKind := v.name?.bind NodeKind.ofName?

def ofNode (n : NodeSpec) : Value :=
  .table ([("name", .text n.name), ("type", .text n.kind.name),
    ("description", .text n.description)] ++
    memberUnless n.origin.isNone "origin" (.text ((n.origin.map (·.name)).getD "")))

def node? (v : Value) : Option NodeSpec := do
  match ← v.fields? ["name", "type", "description", "origin"] with
  | [name, kind, description, origin] =>
    some {
      name := ← Value.required Value.text? name
      kind := ← Value.orElse nodeKind? .node kind
      description := ← Value.orElse Value.text? "" description
      origin := ← Value.orElse (Value.optional? pattern?) none origin }
  | _ => none

def ofParam (p : ParamSpec) : Value := .table [("name", .text p.name), ("type", .text p.type)]

def param? (v : Value) : Option ParamSpec := do
  match ← v.fields? ["name", "type"] with
  | [name, type] =>
    some {
      name := ← Value.required Value.text? name
      type := ← Value.orElse Value.text? "str" type }
  | _ => none

def ofUtility (u : UtilitySpec) : Value :=
  .table [("name", .text u.name), ("description", .text u.description),
    ("parameters", .list (u.parameters.map ofParam)), ("return_type", .text u.returnType)]

def utility? (v : Value) : Option UtilitySpec := do
  match ← v.fields? ["name", "description", "parameters", "return_type"] with
  | [name, description, parameters, returnType] =>
    some {
      name := ← Value.required Value.text? name
      description := ← Value.orElse Value.text? "" description
      parameters := ← Value.orElse (Value.list? param?) [] parameters
      returnType := ← Value.orElse Value.text? "Any" returnType }
  | _ => none

def ofEndpoint (e : EndpointSpec) : Value :=
  .table [("method", .text e.method), ("path", .text e.path), ("description", .text e.description)]

def endpoint? (v : Value) : Option EndpointSpec := do
  match ← v.fields? ["method", "path", "description"] with
  | [method, path, description] =>
    some {
      method := ← Value.orElse Value.text? "POST" method
      path := ← Value.required Value.text? path
      description := ← Value.orElse Value.text? "" description }
  | _ => none

def ofEdge (e : EdgeSpec) : Value :=
  .table [("from", .text e.source), ("to", .text e.target), ("action", .text e.action)]

def edge? (v : Value) : Option EdgeSpec := do
  match ← v.fields? ["from", "to", "action"] with
  | [source, target, action] =>
    some {
      source := ← Value.required Value.text? source
      target := ← Value.required Value.text? target
      action := ← Value.orElse Value.text? defaultAction action }
  | _ => none

def specFields : List String :=
  ["name", "pattern", "description", "base_patterns", "nodes", "utilities", "shared_store_schema",
    "api_endpoints", "edges", "fast_api_integration"]

def ofSpec (w : WorkflowSpec) : Value :=
  .table ([("name", .text w.name), ("pattern", .text w.pattern.name),
    ("description", .text w.description)] ++
    memberUnless w.basePatterns.isEmpty "base_patterns" (ofPatterns w.basePatterns) ++
    [("nodes", .list (w.nodes.map ofNode)), ("utilities", .list (w.utilities.map ofUtility)),
      ("shared_store_schema", ofTextMap .text w.sharedStore),
      ("api_endpoints", .list (w.endpoints.map ofEndpoint))] ++
    memberUnless w.edges.isEmpty "edges" (.list (w.edges.map ofEdge)) ++
    [("fast_api_integration", .bool w.fastApi)])

def spec? (v : Value) : Option WorkflowSpec := do
  match ← v.fields? specFields with
  | [name, pattern, description, bases, nodes, utilities, store, endpoints, edges, fastApi] =>
    some {
      name := ← Value.required Value.text? name
      pattern := ← Value.required pattern? pattern
      description := ← Value.orElse Value.text? "" description
      basePatterns := ← Value.orElse (Value.list? pattern?) [] bases
      nodes := ← Value.orElse (Value.list? node?) [] nodes
      utilities := ← Value.orElse (Value.list? utility?) [] utilities
      sharedStore := ← Value.orElse (textMap? Value.text?) .empty store
      endpoints := ← Value.orElse (Value.list? endpoint?) [] endpoints
      edges := ← Value.orElse (Value.list? edge?) [] edges
      fastApi := ← Value.orElse Value.bool? true fastApi }
  | _ => none

end AgentFlow.Wire
