import AgentFlow.Flowchart.Basic
import AgentFlow.Flowchart.Fence
import AgentFlow.Text.Case

/-!
# Checking diagrams

What keeps a diagram of a document from being drawn.
-/

namespace AgentFlow.Flowchart

inductive IssueKind where
  | unclosedFence
  | emptyDiagram
  | invalidDiagramType
  | unbalancedBrackets
  | mismatchedQuotes
  | invalidArrow
  | unmatchedSubgraph
  | undeclaredNode
deriving DecidableEq

structure Finding where
  line : Nat
  kind : IssueKind
  description : String
deriving DecidableEq

/-- Something wrong with a diagram of a document, which is counted from one. -/
structure Issue where
  diagram : Nat
  finding : Finding
deriving DecidableEq

structure Validation where
  found : Nat
  valid : Nat
  issues : List Issue

def diagramTypes : List String :=
  ["flowchart", "graph", "sequencediagram", "classdiagram", "statediagram", "erdiagram", "gantt",
    "pie", "journey", "gitgraph"]

def directions : List String := ["TB", "TD", "BT", "RL", "LR"]

/-! ## Brackets -/

def opens (c : Char) : Bool := c == '[' || c == '(' || c == '\x7b'

/-- The opening bracket for a closing one. -/
def opener? (c : Char) : Option Char :=
  if c == ']' then some '['
  else if c == ')' then some '('
  else if c == '\x7d' then some '\x7b'
  else none

/-- What is wrong with the brackets, where `stack` holds those that are open and `quoted` tells
whether a double quote is. -/
def unbalancedFrom (quoted : Bool) (stack : List Char) : List Char → Option String
  | [] =>
    if stack.isEmpty then none else some (toString stack.length ++ " bracket(s) never closed")
  | c :: rest =>
    if c == '"' then unbalancedFrom (!quoted) stack rest
    else if quoted then unbalancedFrom quoted stack rest
    else if opens c then unbalancedFrom quoted (c :: stack) rest
    else
      match opener? c with
      | none => unbalancedFrom quoted stack rest
      | some o =>
        if stack.head? == some o then unbalancedFrom quoted (stack.drop 1) rest
        else some ("Unexpected closing '" ++ String.singleton c ++ "'")

/-- What is wrong with the brackets of a text outside double quotes. -/
def unbalanced? (body : String) : Option String := unbalancedFrom false [] body.toList

/-! ## Flow charts -/

def joinsNodes (line : List Char) : Bool :=
  match splitArrow? line with
  | some (source, _, target) => !(nodeName source).isEmpty && !(nodeName target).isEmpty
  | none => false

/-- What is wrong with the lines from number `n` on, with `depth` groups open; `start` is the line
on which the diagram starts. -/
def checkChartLines (start n depth : Nat) : List (List Char) → List Finding
  | [] =>
    if depth == 0 then []
    else [⟨start, .unmatchedSubgraph, toString depth ++ " subgraph(s) never closed"⟩]
  | raw :: rest =>
    let line := trimmed raw
    if "subgraph".toList.isPrefixOf line then checkChartLines start (n + 1) (depth + 1) rest
    else if line == "end".toList then
      if depth == 0 then
        ⟨n, .unmatchedSubgraph, "'end' without a matching subgraph"⟩ ::
          checkChartLines start (n + 1) 0 rest
      else checkChartLines start (n + 1) (depth - 1) rest
    else if (splitStroke? line).isSome && !joinsNodes line then
      ⟨n, .invalidArrow, "Edge needs a source and a target: '" ++ String.ofList line ++ "'"⟩ ::
        checkChartLines start (n + 1) depth rest
    else checkChartLines start (n + 1) depth rest

def undeclared (start : Nat) (g : Graph) : List Finding :=
  (g.arrows.flatMap fun a => [a.source, a.target]).filterMap fun s =>
    if s != "" && !g.nodes.contains s then
      some ⟨start, .undeclaredNode, "Edge references undeclared node '" ++ s ++ "'"⟩
    else none

/-- The number of the first line that is not blank, counted from zero, and the line. -/
def header? : List String → Option (Nat × String)
  | [] => none
  | line :: rest =>
    if Text.hasInk line then some (0, line) else (header? rest).map fun (n, l) => (n + 1, l)

def Diagram.check (d : Diagram) : List Finding :=
  match header? (Text.lines d.body) with
  | none => [⟨d.line, .emptyDiagram, "Diagram is empty"⟩]
  | some (offset, header) =>
    let words := Text.words header
    let keyword := Text.lower (words.headD "")
    let known := diagramTypes.any fun t => keyword == t || Text.startsWith keyword (t ++ "-")
    if !known then
      [⟨d.line + offset, .invalidDiagramType, "Unknown diagram type: '" ++ keyword ++ "'"⟩]
    else
      let brackets :=
        match unbalanced? d.body with
        | some s => [⟨d.line, .unbalancedBrackets, s⟩]
        | none => []
      let quotes :=
        if d.body.toList.count '"' % 2 == 0 then []
        else [⟨d.line, .mismatchedQuotes, "Unmatched double quotes"⟩]
      let chart :=
        if keyword == "flowchart" || keyword == "graph" then
          let direction := (words.drop 1).headD "TD"
          (if directions.contains (Text.upper direction) then []
          else
            [⟨d.line + offset, .invalidDiagramType,
              "Unknown flowchart direction '" ++ direction ++ "'"⟩]) ++
            checkChartLines d.line d.line 0 (Text.linesOf d.body.toList) ++
            undeclared d.line (Graph.read d.body)
        else []
      brackets ++ quotes ++ chart

/-- What is wrong with the diagrams, the first of which has the given number. -/
def checkAll (number : Nat) : List Diagram → List Issue
  | [] => []
  | d :: rest => d.check.map (⟨number, ·⟩) ++ checkAll (number + 1) rest

def Validation.ofDocument (content : String) : Validation :=
  let ds := Diagrams.ofDocument content
  { found := ds.found.length
    valid := ds.found.countP fun d => d.check.isEmpty
    issues := checkAll 1 ds.found ++
      match ds.unclosed? with
      | some line => [⟨ds.found.length, line, .unclosedFence, "Mermaid block is never closed"⟩]
      | none => [] }

end AgentFlow.Flowchart
