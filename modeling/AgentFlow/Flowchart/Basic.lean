import AgentFlow.Text.Blank
import AgentFlow.Text.Distinct

/-!
# Flow charts

The graph that a flow chart draws, and how single lines of its text are read: the arrows between
nodes, and the lines that only lay it out.
-/

namespace AgentFlow.Flowchart

structure Arrow where
  source : String
  label : String
  target : String
deriving DecidableEq

/-- The nodes that a chart declares and its arrows, both in the order of the text. -/
structure Graph where
  nodes : List String := []
  arrows : List Arrow := []
deriving DecidableEq

def Graph.names (g : Graph) : List String := Text.distinctSorted g.nodes

def strokes : List String := ["-.->", "==>", "-->", "---"]

/-- What stands before the first stroke and what stands after it. -/
def splitStroke? : List Char → Option (List Char × List Char)
  | [] => none
  | c :: rest =>
    match strokes.find? fun a => a.toList.isPrefixOf (c :: rest) with
    | some a => some ([], (c :: rest).drop a.length)
    | none => (splitStroke? rest).map fun (before, after) => (c :: before, after)

def trimmed (cs : List Char) : List Char := Text.dropBlankEnd (Text.dropBlank cs)

/-- The parts of a line with an arrow: what stands before it, its label between two bars, and what
stands after it. -/
def splitArrow? (line : List Char) : Option (List Char × List Char × List Char) := do
  let (before, after) ← splitStroke? line
  match Text.dropBlank after with
  | '|' :: rest =>
    match rest.dropWhile (· != '|') with
    | [] => none
    | _ :: target => some (trimmed before, trimmed (rest.takeWhile (· != '|')), trimmed target)
  | rest => some (trimmed before, [], trimmed rest)

def endsNodeName (c : Char) : Bool :=
  c == '[' || c == '(' || c == '\x7b' || c == '>' || c == ' '

def nodeName (declaration : List Char) : List Char :=
  (trimmed declaration).takeWhile fun c => !endsNodeName c

def layoutWords : List String :=
  ["subgraph", "style ", "classDef ", "class ", "linkStyle ", "click "]

/-- Whether a line, without blanks at its ends, is blank, a comment or for styling or grouping. -/
def isLayout (line : List Char) : Bool :=
  line.isEmpty || "%%".toList.isPrefixOf line || line == "end".toList ||
    layoutWords.any fun w => w.toList.isPrefixOf line

/-- What a line, without blanks at its ends, adds to a graph. -/
def Graph.addLine (g : Graph) (line : List Char) : Graph :=
  if isLayout line then g
  else
    match splitArrow? line with
    | some (source, label, target) =>
      { g with arrows := g.arrows ++
          [⟨String.ofList (nodeName source), String.ofList label,
            String.ofList (nodeName target)⟩] }
    | none =>
      match nodeName line with
      | [] => g
      | name => { g with nodes := g.nodes ++ [String.ofList name] }

def Graph.ofLines (lines : List (List Char)) : Graph :=
  (lines.map trimmed).foldl Graph.addLine {}

/-- The graph that the text of a chart draws; its first line is the header. -/
def Graph.read (body : String) : Graph := Graph.ofLines ((Text.linesOf body.toList).drop 1)

end AgentFlow.Flowchart
