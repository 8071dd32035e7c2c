/-!
# Names in specifications

The forms of names, types and labels that may go into generated code and diagrams.
-/

namespace AgentFlow

/-- Letters of the alphabet in either case, digits and the underscore. -/
def isNameChar (c : Char) : Bool := c.isAlphanum || c == '_'

/-- The words that are no names in generated code. -/
def codeKeywords : List String :=
  ["False", "None", "True", "and", "as", "assert", "async", "await", "break", "class", "continue",
    "def", "del", "elif", "else", "except", "finally", "for", "from", "global", "if", "import",
    "in", "is", "lambda", "nonlocal", "not", "or", "pass", "raise", "return", "try", "while",
    "with", "yield"]

def importedClasses : List String :=
  ["Node", "AsyncNode", "BatchNode", "AsyncBatchNode", "AsyncParallelBatchNode", "Flow",
    "AsyncFlow", "BatchFlow", "AsyncBatchFlow", "AsyncParallelBatchFlow", "Any"]

def chartKeywords : List String :=
  ["end", "graph", "flowchart", "subgraph", "direction", "style", "classDef", "linkStyle", "click",
    "call", "href"]

/-- The step of a workflow that takes over when another fails. -/
def errorHandler : String := "error_handler"

def errorAction : String := "error"

/-- Whether a text can name a class: a letter or an underscore, then name characters, and no
keyword. -/
def isClassName (s : String) : Bool :=
  (match s.toList with
  | [] => false
  | c :: rest => (c.isAlpha || c == '_') && rest.all isNameChar) && !codeKeywords.contains s

/-- Whether a text can name a function or a field: as for a class, without capital letters. -/
def isFunctionName (s : String) : Bool := isClassName s && !s.toList.any Char.isUpper

def isActionLabel (s : String) : Bool :=
  !s.isEmpty && s.toList.all fun c => isNameChar c || c == '-'

/-- Whether the square brackets match, with `depth` of them open before, and all other characters
may stand in a type. -/
def typeBracketsMatch (depth : Nat) : List Char → Bool
  | [] => depth == 0
  | c :: rest =>
    if c == '[' then typeBracketsMatch (depth + 1) rest
    else if c == ']' then
      match depth with
      | 0 => false
      | depth + 1 => typeBracketsMatch depth rest
    else (isNameChar c || ['.', ',', ' ', '|'].contains c) && typeBracketsMatch depth rest

/-- Whether a text can be a type: names with points, lists of types in square brackets, and
unions. -/
def isTypeText (s : String) : Bool :=
  typeBracketsMatch 0 s.toList &&
    match s.toList with
    | [] => false
    | c :: _ => c.isAlpha || c == '_'

end AgentFlow
