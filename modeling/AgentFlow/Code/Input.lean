import AgentFlow.Code.Token
import AgentFlow.Code.Tree

/-!
# What a reader of Python text has before it

The tokens still to be read, with what decides where a statement may end: the margin of the block,
the brackets that are open, and whether a line end closes the statement.

A line that goes on a statement must not stand left of the margin, unless a bracket could be closed
there.  `Input.take?` refuses a token that does.
-/

namespace AgentFlow.Code

/-- The rest of a text during reading.  `fresh` holds at the first token of a statement or of a
branch, and `joined` once two statements were found on one line with nothing between them. -/
structure Input where
  rest : List Token
  last : Token := default
  margin : Nat := 0
  simple : Bool := false
  fresh : Bool := true
  joined : Bool := false
  opened : List String := []

def Token.endsOperand (t : Token) : Bool :=
  match t.kind with
  | .number | .text => true
  | .name => !reservedWords.contains t.word || ["True", "False", "None"].contains t.word
  | .mark => [")", "]", "\x7d", "..."].contains t.word
  | _ => false

def Token.startsExpression (t : Token) : Bool :=
  match t.kind with
  | .number | .text => true
  | .name =>
    !reservedWords.contains t.word || ["True", "False", "None", "not", "lambda"].contains t.word
  | .mark => ["(", "[", "\x7b", "+", "-", "~", "*", "..."].contains t.word
  | _ => false

def Token.startsWithQuote (t : Token) : Bool :=
  t.kind == .text && (t.source.head?.map fun c => c == '"' || c == '\'' || c == '`').getD false

namespace Input

def sees (i : Input) (w : String) : Bool :=
  match i.rest with
  | t :: _ => t.word == w && (t.kind == .name || t.kind == .mark)
  | [] => false

/-- Whether the token after the next is the name or the mark `w`. -/
def seesSecond (i : Input) (w : String) : Bool :=
  match i.rest with
  | _ :: t :: _ => t.word == w && (t.kind == .name || t.kind == .mark)
  | _ => false

/-- Whether the next token stands on a new line. -/
def lineEnded (i : Input) : Bool :=
  match i.rest with
  | t :: _ => t.gap.newline
  | [] => true

def ended (i : Input) : Bool := i.simple && i.opened.isEmpty && i.lineEnded

/-- Whether the expression that was just read goes on with `w`. -/
def goesOn (i : Input) (w : String) : Bool := !i.ended && i.sees w

def startsExpression (i : Input) : Bool :=
  match i.rest with
  | t :: _ => !i.ended && t.startsExpression
  | [] => false

/-- Whether a variable stands here. -/
def seesName (i : Input) : Bool :=
  match i.rest with
  | t :: _ => t.isName
  | [] => false

/-- Whether the innermost bracket could be closed after the last token. -/
def closable (i : Input) : Bool :=
  match i.opened with
  | [] => false
  | b :: _ =>
    i.last.endsOperand || i.last.isMark "," || i.last.isMark b || (b == "[" && i.last.isMark ":")

/-- Whether the token, which goes on a statement, stands left of the margin. -/
def breaksBlock (i : Input) (t : Token) : Bool :=
  !i.fresh && t.gap.newline && !i.closable &&
    (t.gap.comments.any (fun c => c.indent < i.margin) ||
      (t.gap.indent < i.margin && !(t.startsWithQuote && !i.last.endsOperand)))

/-- The next token and what follows it. -/
def take? (i : Input) : Option (Token × Input) :=
  match i.rest with
  | [] => none
  | t :: rest =>
    if i.breaksBlock t then none
    else
      let opened :=
        if t.kind != .mark then i.opened
        else if ["(", "[", "\x7b"].contains t.word then t.word :: i.opened
        else if [")", "]", "\x7d"].contains t.word then i.opened.drop 1
        else i.opened
      some (t, { i with rest := rest, last := t, opened := opened, fresh := false })

/-- What follows the next token, which has to be the name or the mark `w`. -/
def skip? (i : Input) (w : String) : Option Input :=
  if i.sees w then i.take?.map (·.2) else none

/-- What follows the next token if it is `w`, and else the input itself. -/
def skipIf (i : Input) (w : String) : Option Input := if i.sees w then i.skip? w else some i

/-- A variable and what follows it. -/
def name? (i : Input) : Option (Tree × Input) :=
  if i.seesName then
    i.take?.map fun (t, i) => (.node .identifier .plain t.line t.endLine t.word [], i)
  else none

def node (i : Input) (type : NodeType) (first : Token) (children : List Tree) : Tree :=
  .node type .plain first.line i.last.endLine "" children

end Input

/-- What a reader gives: a value and the rest, or nothing if the text is not of its form. -/
abbrev Reader (α : Type) := Input → Option (α × Input)

def Input.first (i : Input) : Token := i.rest.headD default

/-- The further items of a list with commas, after `seen` in reverse, and whether there was a comma.
A comma before a place where `stop` holds ends the list. -/
def commaTail (item : Reader Tree) (stop : Input → Bool) :
    (fuel : Nat) → (comma : Bool) → (seen : List Tree) → Reader (List Tree × Bool)
  | 0, _, _, _ => none
  | fuel + 1, comma, seen, i =>
    if i.goesOn "," then do
      let (_, i) ← i.take?
      if stop i then some ((seen.reverse, true), i)
      else
        let (t, i) ← item i
        commaTail item stop fuel true (t :: seen) i
    else some ((seen.reverse, comma), i)

def commaList (fuel : Nat) (item : Reader Tree) (stop : Input → Bool) : Reader Tree := fun i => do
  let first := i.first
  let (t, i) ← item i
  let ((ts, comma), i) ← commaTail item stop fuel false [t] i
  some (if comma then i.node .sequence first ts else t, i)

end AgentFlow.Code
