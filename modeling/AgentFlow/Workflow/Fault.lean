/-!
# Faults of workflow specifications

Why a specification is refused.  Each cause has a kind, the field it concerns, a message, and for
some of them what was expected and what was found.
-/

namespace AgentFlow

inductive FaultKind where
  | missingField
  | duplicate
  | consistency
  | format
  deriving DecidableEq

def httpMethods : List String := ["GET", "POST", "PUT", "PATCH", "DELETE"]

inductive SpecFault where
  | blankName
  | nameNotPlain (name : String)
  | noNodes
  | tooFewBasePatterns
  | nodeNotIdentifier (node : String)
  | nodeShadowsClass (node : String)
  | nodeReservedInDiagram (node : String)
  | nodeRepeated (node : String)
  | utilityNotIdentifier (utility : String)
  | parameterNotIdentifier (parameter utility : String)
  | parameterRepeated (parameter utility : String)
  | parameterType (type parameter : String)
  | returnType (type utility : String)
  | utilityRepeated (utility : String)
  | storeKey (key : String)
  | endpointMethod (method : String)
  | endpointPath (path : String)
  | endpointRepeated (method path : String)
  | edgeUnknownNode (node : String)
  | edgeAction (action : String)
  | edgeErrorAction
  | edgeRepeated (source action : String)
  /-- The generated design document holds a diagram that cannot be drawn. -/
  | designDiagram
  /-- A file for a specification is of an unknown format, as its extension says. -/
  | fileFormat (extension : Option String)
  /-- The generated files differ from the baseline at a path. -/
  | baselineDiffers (path : String) (added removed changed : Nat)
  deriving DecidableEq

namespace SpecFault

def kind : SpecFault → FaultKind
  | blankName | noNodes => .missingField
  | nodeRepeated _ | parameterRepeated .. | utilityRepeated _ | endpointRepeated ..
  | edgeRepeated .. => .duplicate
  | tooFewBasePatterns | edgeUnknownNode _ | edgeErrorAction | baselineDiffers .. => .consistency
  | nameNotPlain _ | nodeNotIdentifier _ | nodeShadowsClass _ | nodeReservedInDiagram _
  | utilityNotIdentifier _ | parameterNotIdentifier .. | parameterType .. | returnType ..
  | storeKey _ | endpointMethod _ | endpointPath _ | edgeAction _ | designDiagram
  | fileFormat _ => .format

def field : SpecFault → String
  | blankName | nameNotPlain _ => "name"
  | noNodes | nodeNotIdentifier _ | nodeShadowsClass _ | nodeReservedInDiagram _
  | nodeRepeated _ => "nodes"
  | tooFewBasePatterns => "base_patterns"
  | utilityNotIdentifier _ | utilityRepeated _ => "utilities"
  | parameterNotIdentifier .. | parameterRepeated .. | parameterType .. => "utilities.parameters"
  | returnType .. => "utilities.return_type"
  | storeKey _ => "shared_store_schema"
  | endpointMethod _ | endpointPath _ | endpointRepeated .. => "api_endpoints"
  | edgeUnknownNode _ | edgeAction _ | edgeErrorAction | edgeRepeated .. => "edges"
  | designDiagram => "docs/design.md"
  | fileFormat _ => "spec"
  | baselineDiffers path .. => path

def reason : SpecFault → String
  | blankName => "required field 'name' is missing or empty"
  | nameNotPlain _ => "workflow name must not contain path separators"
  | noNodes => "required field 'nodes' is missing or empty"
  | tooFewBasePatterns => "HYBRID workflows must list at least two base patterns"
  | nodeNotIdentifier n => "node name '" ++ n ++ "' is not a valid class identifier"
  | nodeShadowsClass n => "node name '" ++ n ++ "' shadows a class imported by the generated code"
  | nodeReservedInDiagram n => "node name '" ++ n ++ "' is reserved in the flow diagram"
  | nodeRepeated n => "node '" ++ n ++ "' is declared more than once"
  | utilityNotIdentifier u => "utility name '" ++ u ++ "' is not a valid function identifier"
  | parameterNotIdentifier p u =>
    "parameter '" ++ p ++ "' of utility '" ++ u ++ "' is not a valid identifier"
  | parameterRepeated p u =>
    "parameter '" ++ p ++ "' of utility '" ++ u ++ "' is declared more than once"
  | parameterType t p => "type '" ++ t ++ "' of parameter '" ++ p ++ "' is not a valid annotation"
  | returnType t u =>
    "return type '" ++ t ++ "' of utility '" ++ u ++ "' is not a valid annotation"
  | utilityRepeated u => "utility '" ++ u ++ "' is declared more than once"
  | storeKey k => "shared store key '" ++ k ++ "' is not a valid field name"
  | endpointMethod m => "unsupported HTTP method '" ++ m ++ "'"
  | endpointPath p => "endpoint path '" ++ p ++ "' must start with '/'"
  | endpointRepeated m p => "endpoint " ++ m ++ " " ++ p ++ " is declared more than once"
  | edgeUnknownNode n => "edge references unknown node '" ++ n ++ "'"
  | edgeAction a => "edge action '" ++ a ++ "' is not a valid label"
  | edgeErrorAction => "the 'error' action is reserved for the error handler"
  | edgeRepeated s a => "node '" ++ s ++ "' has more than one '" ++ a ++ "' transition"
  | designDiagram => "design doc contains an invalid Mermaid diagram"
  | fileFormat _ => "unsupported spec file format"
  | baselineDiffers .. => "generated output differs from baseline"

/-- What was expected and what was found, where that is told. -/
def comparison? : SpecFault → Option (String × String)
  | nameNotPlain n => some ("a plain name", n)
  | endpointMethod m => some ("|".intercalate httpMethods, m)
  | edgeAction a => some ("letters, digits, '_' or '-'", a)
  | fileFormat extension => some ("yaml, yml or json", extension.getD "<none>")
  | baselineDiffers _ added removed changed =>
    some ("no differences", toString added ++ " added, " ++ toString removed ++ " removed, " ++
      toString changed ++ " changed")
  | _ => none

def message (f : SpecFault) : String :=
  "Validation failed for '" ++ f.field ++ "': " ++ f.reason ++
    match f.comparison? with
    | some (expected, found) => " (expected " ++ expected ++ ", got " ++ found ++ ")"
    | none => ""

end SpecFault

end AgentFlow
