import AgentFlow.Text.Quoted
import AgentFlow.Workflow.Identifier
import AgentFlow.Workflow.Spec

/-!
# Names in generated files

How the names of a specification become names and texts in generated code.
-/

namespace AgentFlow.Output

/-- A text for the inside of a documentation string: on one line, with quotes and backslashes
escaped. -/
def docText (s : String) : String :=
  Text.replaceChars (· == '"') ['\\', '"']
    (Text.replaceChars (· == '\\') ['\\', '\\'] (Text.collapse s))

def docString (s : String) : String := "\"\"\"" ++ s ++ "\"\"\""

/-- Whether a capital letter starts a word after the character `before`, when `rest` follows it. -/
def startsWord (before : Option Char) (rest : List Char) : Bool :=
  match before with
  | none => false
  | some b =>
    b.isLower || b.isDigit || (b.isUpper && (rest.head?.map Char.isLower).getD false)

/-- The characters in lower case with an underscore before every word, after `before`. -/
def snakeFrom (before : Option Char) : List Char → List Char
  | [] => []
  | c :: rest =>
    if c.isUpper && startsWord before rest then '_' :: c.toLower :: snakeFrom (some c) rest
    else c.toLower :: snakeFrom (some c) rest

/-- A name in camel case with underscores between its words, in lower case. -/
def snakeCase (name : String) : String := String.ofList (snakeFrom none name.toList)

def alphanumericWords (s : String) : List String :=
  (Text.pieces (fun c => !c.isAlphanum) s).filter (· != "")

/-- A word with its first letter in upper case. -/
def capitalized (w : String) : String :=
  match w.toList with
  | [] => ""
  | c :: rest => String.ofList (c.toUpper :: rest)

/-- A name without separators, each of its words with a capital letter. -/
def pascalCase (name : String) : String :=
  let joined := String.join ((alphanumericWords name).map capitalized)
  match joined.toList with
  | [] => "Workflow"
  | c :: _ => if c.isDigit then "Workflow" ++ joined else joined

/-- A stand-in value for a type, by the name before its brackets. -/
def sampleValue (type : String) : String :=
  match Text.trim ((Text.pieces (· == '[') type).headD "") with
  | "str" => "\"example\""
  | "int" => "1"
  | "float" => "0.0"
  | "bool" => "True"
  | "list" => "[]"
  | "dict" => "\x7b\x7d"
  | _ => "None"

def commas (xs : List String) : String := ", ".intercalate xs

end AgentFlow.Output

namespace AgentFlow

open Output

def NodeSpec.resultKey (n : NodeSpec) : String := snakeCase n.name ++ "_result"

/-- The description of a node, or its name if it has none. -/
def NodeSpec.summary (n : NodeSpec) : String :=
  if n.description.isEmpty then n.name ++ " step." else n.description

def UtilitySpec.summary (u : UtilitySpec) : String :=
  if u.description.isEmpty then u.name ++ " utility." else u.description

def UtilitySpec.parameterItems (u : UtilitySpec) : List String :=
  u.parameters.map fun p => p.name ++ ": " ++ p.type

def EndpointSpec.lowerMethod (e : EndpointSpec) : String := Text.lower e.method

/-- The name of the function that handles requests to an endpoint. -/
def EndpointSpec.handler (e : EndpointSpec) : String :=
  let slug :=
    match alphanumericWords e.path with
    | [] => "root"
    | words => "_".intercalate (words.map Text.lower)
  e.lowerMethod ++ "_" ++ slug

def EndpointSpec.run (workflow : String) : EndpointSpec :=
  ⟨"POST", "/run", "Run the " ++ workflow ++ " workflow"⟩

namespace WorkflowSpec

def flowClass (w : WorkflowSpec) : String := pascalCase w.name ++ "Flow"

/-- The endpoints that are served: the stated ones, or one that runs the workflow. -/
def servedEndpoints (w : WorkflowSpec) : List EndpointSpec :=
  if w.endpoints.isEmpty then [.run w.name] else w.endpoints

end WorkflowSpec

end AgentFlow
