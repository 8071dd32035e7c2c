import AgentFlow.Lint.Facts
import AgentFlow.Lint.Violation
import AgentFlow.Settings.Basic
import AgentFlow.Text.Case
import AgentFlow.Text.Distinct

/-!
# Rules on classes and functions

`check` gives what the rules find in the facts about a text, in the order of the lines.
-/

namespace AgentFlow.Lint

def allowedExceptions : List String :=
  ["JSONDecodeError", "ValueError", "KeyError", "UnicodeDecodeError", "YAMLError", "TypeError"]

/-- Whether a class is a node of a flow: one of its bases is, by its name. -/
def ClassFacts.isNode (c : ClassFacts) : Bool := c.bases.any fun b => Text.endsWith b "Node"

def modelCallEnds : List String :=
  ["completions.create", "messages.create", "generate_content", "invoke"]

/-- Whether a call asks a language model, by its name. -/
def isModelCall (callee : String) : Bool :=
  let s := Text.lower callee
  Text.contains s "llm" || modelCallEnds.any (Text.endsWith s)

def FunctionFacts.modelCalls (f : FunctionFacts) : Nat := f.callees.countP isModelCall

/-! ## Names with several responsibilities -/

def responsibilityVerbs : List String :=
  ["Analyze", "Build", "Call", "Compute", "Create", "Delete", "Execute", "Extract", "Fetch",
    "Format", "Generate", "Handle", "Load", "Parse", "Process", "Read", "Retrieve", "Run", "Save",
    "Send", "Store", "Transform", "Update", "Validate", "Write"]

/-- The words of a name, after those in `seen`, in reverse, and the word in `word`, in reverse.  A
capital letter of the alphabet starts a word, and so does an underscore, which is dropped. -/
def wordsOnto (seen : List (List Char)) (word : List Char) : List Char → List (List Char)
  | [] => word :: seen
  | c :: rest =>
    if c == '_' then wordsOnto (word :: seen) [] rest
    else if c.isUpper then wordsOnto (word :: seen) [c] rest
    else wordsOnto seen (c :: word) rest

def camelWords (name : String) : List String :=
  let words := (wordsOnto [] [] name.toList).reverse.map List.reverse
  (words.filter (!·.isEmpty)).map String.ofList

def verbPairs : List String → List String
  | s :: t :: rest =>
    (if responsibilityVerbs.contains s && responsibilityVerbs.contains t then [s, t] else []) ++
      verbPairs (t :: rest)
  | _ => []

/-- The words of a name that state more than one responsibility. -/
def severalResponsibilities? (name : String) : Option (List String) :=
  let words := camelWords name
  if words.contains "And" then some ["And"]
  else
    match verbPairs words with
    | [] => none
    | verbs => some (Text.dropRepeats verbs)

/-! ## Checks -/

def commaText (xs : List String) : String := ", ".intercalate xs

def TryFacts.broad (t : TryFacts) : List String :=
  t.handlers.flatMap fun
    | none => ["<bare except>"]
    | some names => names.filter fun n => !allowedExceptions.contains n

variable (path : String) (s : DetectionSettings)

/-- What is found in the computing method of a node. -/
def checkExec (c : ClassFacts) (f : FunctionFacts) : List Violation :=
  let shared :=
    match f.sharedAccesses with
    | [] => []
    | first :: _ =>
      [.of .sharedStateInExec path first.line
        (c.name ++ "." ++ f.name ++ " accesses the shared store (" ++
          commaText (Text.distinctSorted (f.sharedAccesses.map (·.value))) ++ ")")
        "Read inputs in prep, return them, and write results in post"]
  let monolithic :=
    let found (reason : String) : List Violation :=
      [.of .monolithicNode path f.line (c.name ++ "." ++ f.name ++ " does too much: " ++ reason)
        "Split the work into separate nodes connected in the flow"]
    if 1 < f.modelCalls then found (toString f.modelCalls ++ " LLM calls")
    else if s.maxExecLines < f.bodyLines then
      found (toString f.bodyLines ++ " lines (limit " ++ toString s.maxExecLines ++ ")")
    else []
  let caught := f.tries.flatMap fun t =>
    match t.broad with
    | [] => []
    | names =>
      [.of .exceptionHandlingInExec path t.line
        (c.name ++ "." ++ f.name ++ " catches " ++ commaText names ++
          " instead of letting the node retry")
        "Remove the try/except and configure max_retries / exec_fallback on the node"]
  shared ++ monolithic ++ caught

/-- What is found in a method of a node that reads or writes the shared store. -/
def checkAround (c : ClassFacts) (f : FunctionFacts) : List Violation :=
  if 0 < f.modelCalls then
    [.withSeverity .lifecycleConfusion .high path f.line
      (c.name ++ "." ++ f.name ++ " calls an LLM; model calls belong in exec")
      "Return the model input from prep and make the call in exec"]
  else if s.maxPrepPostLines < f.bodyLines then
    [.of .lifecycleConfusion path f.line
      (c.name ++ "." ++ f.name ++ " spans " ++ toString f.bodyLines ++ " lines (limit " ++
        toString s.maxPrepPostLines ++ ")")
      "Keep prep/post to shared store reads and writes; compute in exec"]
  else []

def checkNode (c : ClassFacts) : List Violation :=
  let execs := c.methods.filter fun f => f.name == "exec" || f.name == "exec_async"
  let around := c.methods.filter fun f =>
    ["prep", "prep_async", "post", "post_async"].contains f.name
  let missing :=
    if execs.isEmpty then
      [.of .missingLifecycleMethod path c.line
        ("Node '" ++ c.name ++ "' defines no exec or exec_async method")
        "Move the node's computation into exec() and keep prep/post for shared store I/O"]
    else []
  let several :=
    match severalResponsibilities? c.name with
    | none => []
    | some verbs =>
      [.of .multiResponsibilityName path c.line
        ("Node name '" ++ c.name ++ "' combines several responsibilities (" ++ commaText verbs ++
          ")")
        "Split the node so each class does one thing"]
  missing ++ execs.flatMap (checkExec path s c) ++ around.flatMap (checkAround path s c) ++ several

/-- What is found in a function outside classes. -/
def checkUtility (f : FunctionFacts) : List Violation :=
  let logic :=
    if 0 < f.modelCalls && s.minUtilityBranches ≤ f.branches then
      [.of .businessLogicInUtility path f.line
        ("Utility '" ++ f.name ++ "' mixes " ++ toString f.branches ++ " branches with an LLM call")
        "Keep utilities to a single external call; move decisions into nodes"]
    else []
  let shared := f.parameters.filter sharedNames.contains
  let mutation :=
    match f.mutations.find? fun m => shared.contains m.value with
    | some m =>
      [.of .sharedStateMutationInUtility path m.line
        ("Utility '" ++ f.name ++ "' mutates its '" ++ m.value ++ "' argument")
        "Return values from the utility and write them to the shared store in post"]
    | none => []
  logic ++ mutation

/-- What the rules find in the facts about a text, in the order of the lines. -/
def check (facts : SourceFacts) : List Violation :=
  ((facts.classes.filter (·.isNode)).flatMap (checkNode path s) ++
      facts.functions.flatMap (checkUtility path s)).mergeSort fun a b => a.line ≤ b.line

end AgentFlow.Lint
