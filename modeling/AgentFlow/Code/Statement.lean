import AgentFlow.Code.Expression
import AgentFlow.Code.Lexer

/-!
# Reading Python statements

`parse` gives the syntax tree of a whole text, or the line of its first fault.

A block ends before a line that stands left of its margin.  The grammar is a generous one: a block
may be empty, a `try` may have no clauses, a line may be indented further than the one before it,
and the statements `print` and `exec` of older texts are read.
-/

namespace AgentFlow.Code

/-- A list of items with commas between them, which may be closed by a comma. -/
def commaItems (fuel : Nat) (item : Reader Tree) (stop : Input → Bool) : Reader (List Tree) :=
  fun i => do
    let (t, i) ← item i
    let ((ts, _), i) ← commaTail item stop fuel false [t] i
    some (ts, i)

/-- Items that have commas between them, none after the last. -/
def strictItems (fuel : Nat) (item : Reader Tree) : Reader (List Tree) :=
  commaItems fuel item fun _ => false

/-! ## Simple statements -/

/-- The rest of a dotted name, after `seen` in reverse. -/
def dottedTail : (fuel : Nat) → (seen : List Tree) → Reader (List Tree)
  | 0, _, _ => none
  | fuel + 1, seen, i =>
    if i.goesOn "." then do
      let (t, i) ← (← i.skip? ".").name?
      dottedTail fuel (t :: seen) i
    else some (seen.reverse, i)

def dottedName (fuel : Nat) : Reader Tree := fun i => do
  let (t, j) ← i.name?
  let (ts, j) ← dottedTail fuel [t] j
  some (j.node .group i.first ts, j)

def imported (fuel : Nat) : Reader Tree := fun i => do
  let (t, j) ← dottedName fuel i
  if j.goesOn "as" then
    let (u, j) ← (← j.skip? "as").name?
    some (j.node .group i.first [t, u], j)
  else some (t, j)

/-- The points before the name of a module. -/
def skipDots : (fuel : Nat) → Input → Option Input
  | 0, _ => none
  | fuel + 1, i =>
    if i.sees "." || i.sees "..." then (i.take?.map (·.2)).bind (skipDots fuel) else some i

def importFrom (fuel : Nat) : Reader Tree := fun i => do
  let j ← i.skip? "from"
  let k ← skipDots fuel j
  let relative := j.sees "." || j.sees "..."
  let (ts, k) ←
    if k.sees "import" && relative then some ([], k)
    else (dottedName fuel k).map fun (t, k) => ([t], k)
  let k ← k.skip? "import"
  if k.sees "*" then
    let k ← k.skip? "*"
    some (k.node .group i.first ts, k)
  else if k.sees "(" then
    let (us, k) ← commaItems fuel (imported fuel) (·.sees ")") (← k.skip? "(")
    let k ← k.skip? ")"
    some (k.node .group i.first (ts ++ us), k)
  else
    let (us, k) ← commaItems fuel (imported fuel) (fun i => i.ended || !i.seesName) k
    some (k.node .group i.first (ts ++ us), k)

/-- The marks that change a variable in place. -/
def augmentedMarks : List String :=
  ["+=", "-=", "*=", "/=", "@=", "//=", "%=", "**=", ">>=", "<<=", "&=", "^=", "|="]

/-- Expressions with commas, a yield, or an assignment, whose right side may be one again. -/
def assignable : (fuel : Nat) → Reader Tree
  | 0, _ => none
  | fuel + 1, i =>
    if i.sees "yield" then yielded fuel i
    else do
      let (t, j) ← expressions fuel i
      if j.goesOn "=" || (!j.ended && augmentedMarks.any j.sees) then
        if !isTarget t then none
        else
          let (_, j) ← j.take?
          let (u, j) ← assignable fuel j
          some (j.node .assignment i.first [t.as .left, u], j)
      else if j.goesOn ":" then
        if !isTarget t then none
        else
          let (u, j) ← typeAnnotation fuel (← j.skip? ":")
          if j.goesOn "=" then
            let (v, j) ← assignable fuel (← j.skip? "=")
            some (j.node .assignment i.first [t.as .left, u, v], j)
          else some (j.node .assignment i.first [t.as .left, u], j)
      else some (t, j)

/-- The statement `print` of older texts. -/
def printed (fuel : Nat) : Reader Tree := fun i => do
  let j ← i.skip? "print"
  let item (i : Input) : Option (Tree × Input) := do
    let i ← i.skipIf ">>"
    expression fuel true i
  let (ts, j) ← commaItems fuel item (fun i => !i.startsExpression) j
  some (j.node .group i.first ts, j)

/-- The statement `exec` of older texts, whose code is a text or a name. -/
def executed (fuel : Nat) : Reader Tree := fun i => do
  let j ← i.skip? "exec"
  let (t, j) ←
    match j.rest with
    | s :: _ => if s.kind == .text then texts 2 s [] j else j.name?
    | [] => none
  if j.goesOn "in" then
    let (us, j) ← strictItems fuel (expression fuel true) (← j.skip? "in")
    some (j.node .group i.first (t :: us), j)
  else some (j.node .group i.first [t], j)

def typeAlias (fuel : Nat) : Reader Tree := fun i => do
  let j ← i.skip? "type"
  if j.ended || !j.seesName then none
  else
    let (t, j) ← typeAnnotation fuel j
    let (u, j) ← typeAnnotation fuel (← j.skip? "=")
    some (j.node .group i.first [t, u], j)

def Input.closesStatement (i : Input) : Bool := i.lineEnded || i.sees ";"

def simpleStatement (fuel : Nat) : Reader Tree := fun i => do
  let whole (ts : List Tree) (j : Input) : Option (Tree × Input) :=
    some (j.node .group i.first ts, j)
  if i.sees "import" then
    let (ts, j) ←
      commaItems fuel (imported fuel) (fun i => i.ended || !i.seesName) (← i.skip? "import")
    whole ts j
  else if i.sees "from" then importFrom fuel i
  else if i.sees "assert" then
    let (ts, j) ← strictItems fuel (expression fuel true) (← i.skip? "assert")
    whole ts j
  else if i.sees "return" then
    let j ← i.skip? "return"
    if j.startsExpression then
      let (t, j) ← expressions fuel j
      whole [t] j
    else whole [] j
  else if i.sees "del" then
    let (t, j) ← expressions fuel (← i.skip? "del")
    some (j.node .deleteStatement i.first [t], j)
  else if i.sees "raise" then
    let j ← i.skip? "raise"
    let (ts, j) ←
      if j.startsExpression then (expressions fuel j).map fun (t, j) => ([t], j) else some ([], j)
    if j.goesOn "from" then
      let (u, j) ← expression fuel true (← j.skip? "from")
      whole (ts ++ [u]) j
    else whole ts j
  else if i.sees "pass" || i.sees "break" || i.sees "continue" then
    let (_, j) ← i.take?
    whole [] j
  else if i.sees "global" || i.sees "nonlocal" then
    let (_, j) ← i.take?
    let (ts, j) ← strictItems fuel Input.name? j
    whole ts j
  else
    let complete (r : Option (Tree × Input)) : Option (Tree × Input) :=
      r.filter fun (_, j) => j.closesStatement
    let plain := assignable fuel i
    if i.sees "print" then (complete plain).or ((complete (printed fuel i)).or plain)
    else if i.sees "exec" then (complete plain).or ((complete (executed fuel i)).or plain)
    else if i.sees "type" then (complete (typeAlias fuel i)).or plain
    else plain

/-! ## Compound statements -/

/-- What reading statements gives, or the line of the fault. -/
abbrev Outcome := Except Nat

/-- A reading whose fault lies on the line. -/
def faultOn {α : Type} (line : Nat) (r : Option (α × Input)) : Outcome (α × Input) :=
  match r with
  | some x => .ok x
  | none => .error line

/-- A reading of a header, whose fault lies on the line where the header starts. -/
def orFault {α : Type} (i : Input) (r : Option (α × Input)) : Outcome (α × Input) :=
  faultOn i.first.line r

/-- Whether the statement with a block goes on with the word `w`, inside the block around it. -/
def Input.seesClause (i : Input) (w : String) : Bool := i.sees w && !(i.first.gap.indent < i.margin)

def casePattern : (fuel : Nat) → Reader Tree
  | 0, _ => none
  | fuel + 1, i => do
    let names (i : Input) : Option (Tree × Input) := dottedName fuel i
    let list (close : String) (item : Reader Tree) (i : Input) : Option (List Tree × Input) := do
      let (_, j) ← i.take?
      if j.sees close then some ([], ← j.skip? close)
      else
        let (ts, j) ← commaItems fuel item (·.sees close) j
        some (ts, ← j.skip? close)
    let entry (i : Input) : Option (Tree × Input) :=
      if i.sees "**" || i.sees "*" then casePattern fuel i
      else do
        let (t, j) ← casePattern fuel i
        let (u, j) ← casePattern fuel (← j.skip? ":")
        some (j.node .group i.first [t, u], j)
    let single (i : Input) : Option (List Tree × Input) :=
      match i.rest with
      | [] => none
      | t :: _ =>
        if t.kind == .text then (texts fuel t [] i).map fun (t, j) => ([t], j)
        else if t.kind == .number || i.sees "-" then do
          let number (i : Input) : Option Input :=
            if i.first.kind == .number then i.take?.map (·.2) else none
          let j ← number (← i.skipIf "-")
          if j.sees "+" || j.sees "-" then
            let (_, j) ← j.take?
            some ([], ← number j)
          else some ([], j)
        else if ["True", "False", "None"].any i.sees then i.take?.map fun (_, j) => ([], j)
        else if i.sees "(" then list ")" (casePattern fuel) i
        else if i.sees "[" then list "]" (casePattern fuel) i
        else if i.sees "\x7b" then list "\x7d" entry i
        else do
          let (t, j) ← names i
          if j.sees "(" then
            let (ts, j) ← list ")" (casePattern fuel) j
            some (t :: ts, j)
          else some ([t], j)
    if i.sees "*" || i.sees "**" then
      let (_, j) ← i.take?
      let (t, j) ← j.name?
      some (j.node .group i.first [t], j)
    else
      let keyword := i.seesName && i.seesSecond "="
      let (ts, j) ←
        if keyword then do
          let (t, j) ← i.name?
          some ([t], ← j.skip? "=")
        else some ([], i)
      let (us, j) ← single j
      let (us, j) ←
        if j.sees "|" then do
          let (u, j) ← casePattern fuel (← j.skip? "|")
          some (us ++ [u], j)
        else some (us, j)
      let (us, j) ←
        if j.sees "as" then do
          let (u, j) ← (← j.skip? "as").name?
          some (us ++ [u], j)
        else some (us, j)
      some (j.node .group i.first (ts ++ us), j)

/-- The parameters of a class or a function that stand for types. -/
def typeParameters (fuel : Nat) : Reader (List Tree) := fun i => do
  if !i.sees "[" then some ([], i)
  else
    let one (i : Input) : Option (Tree × Input) := do
      let (t, j) ← typeAnnotation fuel i
      if j.sees ":" then
        let (u, j) ← typeAnnotation fuel (← j.skip? ":")
        some (j.node .group i.first [t, u], j)
      else some (t, j)
    let (ts, j) ← commaItems fuel one (·.sees "]") (← i.skip? "[")
    some (ts, ← j.skip? "]")

def classHeader (fuel : Nat) : Reader (List Tree) := fun i => do
  let j ← i.skip? "class"
  let (name, j) ← j.name?
  let (ts, j) ← typeParameters fuel j
  let (us, j) ←
    if j.sees "(" then (arguments fuel j).map fun (t, j) => ([t.as .superclasses], j)
    else some ([], j)
  let j ← j.skip? ":"
  some (name.as .name :: ts ++ us, j)

def functionHeader (fuel : Nat) : Reader (List Tree) := fun i => do
  let j ← (← i.skipIf "async").skip? "def"
  let (name, j) ← j.name?
  let (ts, j) ← typeParameters fuel j
  let start := j.first
  let j ← j.skip? "("
  let (ps, j) ←
    if j.sees ")" then some ([], j) else commaItems fuel (parameter fuel true) (·.sees ")") j
  let j ← j.skip? ")"
  let parameters := (j.node .parameters start ps).as .parameters
  let (us, j) ←
    if j.sees "->" then do
      let (u, j) ← typeAnnotation fuel (← j.skip? "->")
      some ([u], j)
    else some ([], j)
  let j ← j.skip? ":"
  some (name.as .name :: ts ++ parameters :: us, j)

def forHeader (fuel : Nat) : Reader (List Tree) := fun i => do
  let j ← (← i.skipIf "async").skip? "for"
  let (t, j) ← targets fuel j
  let (u, j) ← expressions fuel (← j.skip? "in")
  some ([t, u], ← j.skip? ":")

/-- A header with the word `w`, expressions if `several` holds or one, and a colon. -/
def wordHeader (fuel : Nat) (w : String) (several : Bool) : Reader (List Tree) := fun i => do
  let j ← i.skip? w
  let (t, j) ← if several then expressions fuel j else expression fuel true j
  some ([t], ← j.skip? ":")

def withHeader (fuel : Nat) : Reader (List Tree) := fun i => do
  wordHeader fuel "with" true (← i.skipIf "async")

/-- The header of a clause for exceptions: whether it takes groups apart, and what it holds. -/
def exceptHeader (fuel : Nat) : Reader (Bool × List Tree) := fun i => do
  let j ← i.skip? "except"
  let inGroups := j.sees "*" && j.first.start == i.first.stop
  let j ← if inGroups then j.skip? "*" else some j
  if j.sees ":" && !inGroups then some ((false, []), ← j.skip? ":")
  else
    let (t, j) ← expression fuel true j
    let (ts, j) ←
      if j.sees "," && !inGroups then do
        let (u, j) ← expression fuel true (← j.skip? ",")
        some ([t, u], j)
      else some ([t], j)
    some ((inGroups, ts), ← j.skip? ":")

def caseHeader (fuel : Nat) : Reader (List Tree) := fun i => do
  let j ← i.skip? "case"
  let (ts, j) ← commaItems fuel (casePattern fuel) (fun i => i.sees ":" || i.sees "if") j
  let (us, j) ←
    if j.sees "if" then do
      let (u, j) ← expression fuel true (← j.skip? "if")
      some ([u], j)
    else some ([], j)
  some (ts ++ us, ← j.skip? ":")

/-- The decorators before a definition, after `seen` in reverse. -/
def decorators : (fuel : Nat) → (seen : List Tree) → Reader (List Tree)
  | 0, _, _ => none
  | fuel + 1, seen, i =>
    if i.sees "@" then do
      let (t, j) ← expression fuel true { (← i.skip? "@") with simple := true }
      if j.lineEnded then decorators fuel (t :: seen) { j with simple := false } else none
    else some (seen.reverse, i)

/-- The comments before the next token that still belong to a block with the margin `m`, although
the token does not: their number and the last one. -/
def trailingComments (m : Nat) (t : Token) : Nat × Option Comment :=
  let cs := t.gap.comments.takeWhile fun c => m ≤ c.indent
  (cs.length, cs.getLast?)

/-- Whether two statements with nothing between them are told apart: the last token of the first is
long, and leaving out the first token of the second would not help. -/
def Input.joinable (i : Input) : Bool :=
  10 ≤ i.last.length &&
    match i.rest with
    | t :: u :: _ => 10 ≤ t.length || !u.gap.newline
    | _ => false

/-- The simple statements of a line, after `seen` in reverse. -/
def simpleLine (fuel : Nat) :
    (count : Nat) → (seen : List Tree) → Input → Outcome (List Tree × Input)
  | 0, _, i => .error i.first.line
  | count + 1, seen, i =>
    match simpleStatement fuel { i with simple := true, fresh := true } with
    | none => .error i.first.line
    | some (t, j) =>
      if j.lineEnded then .ok ((t :: seen).reverse, j)
      else if j.sees ";" then
        match j.take? with
        | none => .error i.first.line
        | some (_, j) =>
          if j.lineEnded then .ok ((t :: seen).reverse, j) else simpleLine fuel count (t :: seen) j
      else if j.joinable then .ok ((t :: seen).reverse, { j with joined := true })
      else .error j.last.line

def blockOf (ts : List Tree) (line endLine : Nat) : Tree := .node .block .body line endLine "" ts

/-- Whether the block with the margin of the input ends before the next token. -/
def Input.closesBlock (i : Input) : Bool :=
  match i.rest with
  | t :: _ => t.kind == .finish || (t.gap.newline && t.gap.indent < i.margin)
  | [] => true

/-- The input without the comments that belong to the block that ends here, and the last line of
that block. -/
def closeBlock (i : Input) (endLine : Nat) : Nat × Input :=
  match i.rest with
  | t :: rest =>
    let (n, last) := trailingComments i.margin t
    ((last.map fun c => max endLine c.line).getD endLine,
      { i with rest := t.dropComments n :: rest })
  | [] => (endLine, i)

mutual

/-- The block after a colon: simple statements on the same line, or indented lines.  A line that is
not indented further leaves the block empty. -/
def suite (size : Nat) : (fuel : Nat) → Input → Outcome (Tree × Input)
  | 0, i => .error i.first.line
  | fuel + 1, i =>
    if !i.lineEnded then do
      let (ts, j) ← simpleLine size size [] i
      .ok (blockOf ts i.first.line j.last.endLine, j)
    else if i.margin < i.first.gap.indent then do
      let line := i.first.line
      let (ts, j) ← statements size fuel [] { i with margin := i.first.gap.indent }
      let (endLine, j) := closeBlock j j.last.endLine
      .ok (blockOf ts line endLine, { j with margin := i.margin })
    else .ok (blockOf [] i.last.endLine i.last.endLine, i)

def statements (size : Nat) :
    (fuel : Nat) → (seen : List Tree) → Input → Outcome (List Tree × Input)
  | 0, _, i => .error i.first.line
  | fuel + 1, seen, i =>
    if i.closesBlock then .ok (seen.reverse, i)
    else
      match statement size fuel { i with simple := false, fresh := true } with
      | .ok (ts, j) => statements size fuel (ts.reverse ++ seen) j
      | .error line => .error line

def statement (size : Nat) : (fuel : Nat) → Input → Outcome (List Tree × Input)
  | 0, i => .error i.first.line
  | fuel + 1, i =>
    let single (r : Outcome (Tree × Input)) : Outcome (List Tree × Input) :=
      r.map fun (t, j) => ([t], j)
    let isDefinition := i.sees "def" || i.sees "class" || (i.sees "async" && i.seesSecond "def")
    if isDefinition then single (definition size fuel i.first.line i)
    else if i.sees "@" then do
      let (ts, j) ← orFault i (decorators size [] i)
      let (t, k) ← definition size fuel i.first.line j
      .ok ([k.node .decorated i.first (ts ++ [t.as .definition])], k)
    else if i.sees "if" then do
      let (ts, j) ← orFault i (wordHeader size "if" false i)
      let (b, j) ← suite size fuel j
      let (cs, j) ← clauses size fuel ["elif"] [] j
      let (es, j) ← clauses size fuel ["else"] [] j
      .ok ([j.node .ifStatement i.first (ts ++ b :: cs ++ es)], j)
    else if i.sees "while" then do
      let (ts, j) ← orFault i (wordHeader size "while" false i)
      let (b, j) ← suite size fuel j
      let (es, j) ← clauses size fuel ["else"] [] j
      .ok ([j.node .group i.first (ts ++ b :: es)], j)
    else if i.sees "for" || (i.sees "async" && i.seesSecond "for") then do
      let (ts, j) ← orFault i (forHeader size i)
      let (b, j) ← suite size fuel j
      let (es, j) ← clauses size fuel ["else"] [] j
      .ok ([j.node .group i.first (ts ++ b :: es)], j)
    else if i.sees "with" || (i.sees "async" && i.seesSecond "with") then do
      let (ts, j) ← orFault i (withHeader size i)
      let (b, j) ← suite size fuel j
      .ok ([j.node .group i.first (ts ++ [b])], j)
    else if i.sees "try" then do
      let j ← orFault i (((i.skip? "try").bind (·.skip? ":")).map ((), ·))
      let (b, j) ← suite size fuel j.2
      let (cs, j) ← clauses size fuel ["except"] [] j
      let (es, j) ← clauses size fuel ["else"] [] j
      let (fs, j) ← clauses size fuel ["finally"] [] j
      .ok ([j.node .tryStatement i.first (b :: cs ++ es ++ fs)], j)
    else
      let matched := if i.sees "match" then wordHeader size "match" true i else none
      match matched with
      | some (ts, j) =>
        if j.lineEnded then do
          let (cs, k) ←
            if i.margin < j.first.gap.indent then do
              let (cs, k) ← cases size fuel [] { j with margin := j.first.gap.indent }
              let (_, k) := closeBlock k k.last.endLine
              .ok (cs, { k with margin := i.margin })
            else .ok ([], j)
          .ok ([k.node .group i.first (ts ++ cs)], k)
        else simpleLine size size [] i
      | none => simpleLine size size [] i

/-- A class or a function, whose decorators start on the line `start`. -/
def definition (size : Nat) : (fuel start : Nat) → Input → Outcome (Tree × Input)
  | 0, start, _ => .error start
  | fuel + 1, start, i => do
    let isClass := i.sees "class"
    let (ts, j) ← faultOn start (if isClass then classHeader size i else functionHeader size i)
    let (b, j) ← suite size fuel { j with fresh := true }
    .ok (j.node (if isClass then .classDefinition else .functionDefinition) i.first (ts ++ [b]), j)

/-- The clauses that go on a statement with one of the words, after `seen` in reverse. -/
def clauses (size : Nat) : (fuel : Nat) → (words : List String) → (seen : List Tree) → Input →
    Outcome (List Tree × Input)
  | 0, _, _, i => .error i.first.line
  | fuel + 1, words, seen, i =>
    match words.find? i.seesClause with
    | none => .ok (seen.reverse, i)
    | some w =>
      let i := { i with simple := false, fresh := true }
      if w == "elif" then do
        let (ts, j) ← orFault i (wordHeader size w false i)
        let (b, j) ← suite size fuel j
        clauses size fuel words (j.node .elifClause i.first (ts ++ [b]) :: seen) j
      else if w == "except" then do
        let ((inGroups, ts), j) ← orFault i (exceptHeader size i)
        let text := textUpTo i.first j.last.stop
        let (b, k) ← suite size fuel j
        let t : Tree := .node (if inGroups then .group else .exceptClause) .plain i.first.line
          k.last.endLine text (ts ++ [b])
        clauses size fuel words (t :: seen) k
      else do
        let j ← orFault i (((i.skip? w).bind (·.skip? ":")).map ((), ·))
        let (b, j) ← suite size fuel j.2
        .ok ((j.node .group i.first [b] :: seen).reverse, j)

def cases (size : Nat) : (fuel : Nat) → (seen : List Tree) → Input → Outcome (List Tree × Input)
  | 0, _, i => .error i.first.line
  | fuel + 1, seen, i =>
    if i.closesBlock then .ok (seen.reverse, i)
    else do
      let i := { i with simple := false, fresh := true }
      let (ts, j) ← orFault i (caseHeader size i)
      let (b, j) ← suite size fuel j
      cases size fuel (j.node .caseClause i.first (ts ++ [b]) :: seen) j

end

/-- The syntax tree of a text, or the line of its first fault. -/
def parse (source : String) : Except Nat Tree :=
  let ts := tokens source
  let size := 16 * source.length + 64
  match statements size size [] { rest := ts } with
  | .error line => .error line
  | .ok (cs, i) => if i.joined then .error 1 else .ok (i.node .module (ts.headD default) cs)

end AgentFlow.Code
