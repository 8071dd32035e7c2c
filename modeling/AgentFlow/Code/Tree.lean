/-!
# Syntax trees of Python text

One type of node for the whole grammar: what a node is, the part it plays in its parent, the lines
it covers, its text where a rule reads it, and its children in the order of the text.  Operators do
not appear, and the precedence among binary operators is not kept, since no rule looks at them.
-/

namespace AgentFlow.Code

/-- What a node is.  Nodes that no rule tells apart are `group`s. -/
inductive NodeType where
  | module
  | block
  | classDefinition
  | functionDefinition
  | decorated
  | parameters
  | typedParameter
  | defaultParameter
  | arguments
  | ifStatement
  | elifClause
  | caseClause
  | tryStatement
  | exceptClause
  | deleteStatement
  | assignment
  | call
  | attribute
  | subscript
  | identifier
  | keywordArgument
  /-- A starred target or argument. -/
  | starred
  /-- Expressions or targets in brackets or between commas. -/
  | sequence
  | group
deriving DecidableEq, Inhabited

/-- The part that a node plays in its parent. -/
inductive Role where
  | plain
  | name
  /-- The name of a keyword argument. -/
  | keyword
  | value
  | object
  | attribute
  | function
  | left
  | parameters
  | superclasses
  | body
  | definition
deriving DecidableEq, Inhabited

inductive Tree where
  | node (type : NodeType) (role : Role) (line endLine : Nat) (text : String)
    (children : List Tree)

namespace Tree

instance : Inhabited Tree := ⟨.node .group .plain 1 1 "" []⟩

def type : Tree → NodeType
  | node t .. => t

def role : Tree → Role
  | node _ r .. => r

def line : Tree → Nat
  | node _ _ l .. => l

def endLine : Tree → Nat
  | node _ _ _ l .. => l

def text : Tree → String
  | node _ _ _ _ s _ => s

def children : Tree → List Tree
  | node _ _ _ _ _ cs => cs

def as (r : Role) : Tree → Tree
  | node t _ l m s cs => node t r l m s cs

def child? (t : Tree) (r : Role) : Option Tree := t.children.find? (·.role == r)

mutual

/-- The nodes of a tree that stands in `parent`, each with the node that it stands in, in the order
of the text and before its children, and then `after`. -/
def nodesOnto (after : List (Tree × Tree)) (parent : Tree) : Tree → List (Tree × Tree)
  | node t r l m s cs =>
    (parent, node t r l m s cs) :: nodesOntoAll after (node t r l m s cs) cs

/-- The nodes of several trees that stand in `parent`, and then `after`. -/
def nodesOntoAll (after : List (Tree × Tree)) (parent : Tree) : List Tree → List (Tree × Tree)
  | [] => after
  | t :: ts => nodesOnto (nodesOntoAll after parent ts) parent t

end

/-- The nodes of a tree that stands in `parent`, each with the node that it stands in, in the order
of the text and before its children. -/
def nodesIn (t parent : Tree) : List (Tree × Tree) := nodesOnto [] parent t

end Tree

end AgentFlow.Code
