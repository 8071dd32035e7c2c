import AgentFlow.Code.Input

/-!
# Reading Python expressions

`expression` reads one expression from the tokens.  The readers recurse on a count, which the reader
of a whole text chooses larger than any nesting.

Chains of binary operators and comparisons become one node whose children are the operands.
-/

namespace AgentFlow.Code

mutual

def isTarget : Tree → Bool
  | .node .identifier .. | .node .attribute .. | .node .subscript .. => true
  | .node .starred _ _ _ _ [.node t ..] => t == .identifier || t == .attribute || t == .subscript
  | .node .sequence _ _ _ _ ts => areTargets ts
  | _ => false

def areTargets : List Tree → Bool
  | [] => true
  | t :: ts => isTarget t && areTargets ts

end

/-- A primary with a star before it.  The star belongs to what can be assigned to, so of calls at
the end it is the callee that is starred. -/
def starred (star : Token) : Tree → Option Tree
  | .node .call r _ stop text (.node k kr kl ks kt kc :: rest) => do
    let .node k _ l e _ ts ← starred star (.node k kr kl ks kt kc)
    some (.node .call r star.line stop text (.node k .function l e ("*" ++ kt) ts :: rest))
  | t =>
    let u : Tree := .node .starred .plain star.line t.endLine "" [t]
    if isTarget u then some u else none

def binaryMarks : List String :=
  ["+", "-", "*", "/", "%", "@", "//", "**", "<<", ">>", "&", "|", "^", "<", ">", "<=", ">=", "==",
    "!=", "<>"]

namespace Input

def seesLoop (i : Input) : Bool := i.sees "for" || (i.sees "async" && i.seesSecond "for")

/-- What follows a binary operator or a comparison, if one stands here. -/
def operator? (i : Input) : Option Input :=
  if i.ended then none
  else if i.sees "not" && i.seesSecond "in" then do (← i.skip? "not").skip? "in"
  else if i.sees "in" then i.skip? "in"
  else if i.sees "is" then do (← i.skip? "is").skipIf "not"
  else if binaryMarks.any i.sees then i.take?.map (·.2)
  else none

/-- Whether `await` stands here with an operand after it; otherwise it is a name. -/
def seesAwait (i : Input) : Bool :=
  i.sees "await" &&
    match i.rest with
    | _ :: t :: _ => t.startsExpression && !(["not", "lambda", "+", "-", "~", "*"].contains t.word)
    | _ => false

def seesClose (i : Input) : Bool := i.sees ")" || i.sees "]" || i.sees "\x7d"

/-- The children as one node, unless there is only one. -/
def grouped (i : Input) (first : Token) : List Tree → Tree
  | [t] => t
  | ts => i.node .group first ts

end Input

mutual

/-- An expression.  Where `conditional` fails, an `if` belongs to what stands around. -/
def expression : (fuel : Nat) → (conditional : Bool) → Reader Tree
  | 0, _, _ => none
  | fuel + 1, c, i => do
    let (t, j) ← item fuel c i
    expressionTail fuel c i.first [t] j

/-- What follows the first part of an expression, after `parts` in reverse. -/
def expressionTail : (fuel : Nat) → Bool → Token → (parts : List Tree) → Reader Tree
  | 0, _, _, _, _ => none
  | fuel + 1, c, first, parts, i =>
    if i.goesOn "and" || i.goesOn "or" then do
      let (_, i) ← i.take?
      let (t, i) ← item fuel c i
      expressionTail fuel c first (t :: parts) i
    else if c && i.goesOn "if" then do
      let (_, j) ← i.take?
      let (t, j) ← expression fuel true { j with simple := false }
      let j ← j.skip? "else"
      let (u, j) ← expression fuel c { j with simple := i.simple }
      expressionTail fuel c first (u :: t :: parts) j
    else if i.goesOn "as" then do
      let (_, i) ← i.take?
      let (t, i) ← expression fuel c i
      expressionTail fuel c first (t :: parts) i
    else some (i.grouped first parts.reverse, i)

/-- A part of an expression between `and` and `or`. -/
def item : (fuel : Nat) → Bool → Reader Tree
  | 0, _, _ => none
  | fuel + 1, c, i =>
    if i.sees "not" then do
      let (_, j) ← i.take?
      let (t, j) ← item fuel c j
      some (j.node .group i.first [t], j)
    else if i.sees "lambda" then do
      let (_, j) ← i.take?
      let (ps, j) ←
        if j.sees ":" then some ([], j)
        else do
          let (p, j) ← parameter fuel false { j with simple := false }
          let ((ps, _), j) ← commaTail (parameter fuel false) (·.sees ":") fuel false [p] j
          some (ps, j)
      let j ← j.skip? ":"
      let (t, j) ← expression fuel c { j with simple := i.simple }
      some (j.node .group i.first [j.node .parameters i.first ps, t], j)
    else if i.seesName && i.seesSecond ":=" then do
      let (t, j) ← i.name?
      let j ← j.skip? ":="
      let (u, j) ← expression fuel c j
      some (j.node .group i.first [t, u], j)
    else do
      let (t, j) ← operand fuel i
      chainTail fuel i.first [t] j

/-- The further operands of a chain, after `parts` in reverse. -/
def chainTail : (fuel : Nat) → Token → (parts : List Tree) → Reader Tree
  | 0, _, _, _ => none
  | fuel + 1, first, parts, i =>
    match i.operator? with
    | some i => do
      let (t, i) ← operand fuel i
      chainTail fuel first (t :: parts) i
    | none => some (i.grouped first parts.reverse, i)

def operand : (fuel : Nat) → Reader Tree
  | 0, _ => none
  | fuel + 1, i =>
    if i.sees "+" || i.sees "-" || i.sees "~" then do
      let (_, j) ← i.take?
      let (t, j) ← operand fuel j
      some (j.node .group i.first [t], j)
    else if i.sees "*" then do
      let (_, j) ← i.take?
      let (t, j) ← primary fuel j
      (starred i.first t).map (·, j)
    else if i.seesAwait then do
      let (_, j) ← i.take?
      let (t, j) ← operand fuel j
      some (j.node .group i.first [t], j)
    else primary fuel i

/-- An atom with its attributes, calls and subscripts. -/
def primary : (fuel : Nat) → Reader Tree
  | 0, _ => none
  | fuel + 1, i => do
    let (t, j) ← atom fuel i
    primaryTail fuel i.first t j

/-- The further attributes, calls and subscripts of a primary that starts at `first`. -/
def primaryTail : (fuel : Nat) → Token → Tree → Reader Tree
  | 0, _, _, _ => none
  | fuel + 1, first, t, i =>
    if i.goesOn "." then do
      let (_, i) ← i.take?
      let (a, i) ← i.name?
      let u : Tree := .node .attribute .plain first.line i.last.endLine
        (textUpTo first i.last.stop) [t.as .object, a.as .attribute]
      primaryTail fuel first u i
    else if i.goesOn "(" then do
      let callee : Tree := match t with
        | .node k _ l m _ ts => .node k .function l m (textUpTo first i.last.stop) ts
      let (args, i) ← arguments fuel i
      primaryTail fuel first (i.node .call first [callee, args]) i
    else if i.goesOn "[" then do
      let (_, i) ← i.take?
      let (s, i) ← slice fuel i
      let ((ss, _), i) ← commaTail (slice fuel) (·.sees "]") fuel false [s] i
      let i ← i.skip? "]"
      primaryTail fuel first (i.node .subscript first (t.as .value :: ss)) i
    else some (t, i)

def slice : (fuel : Nat) → Reader Tree
  | 0, _ => none
  | fuel + 1, i => do
    let part (i : Input) : Option (List Tree × Input) :=
      if i.startsExpression then (expression fuel true i).map fun (t, i) => ([t], i)
      else some ([], i)
    let (a, j) ← part i
    if j.sees ":" then
      let (b, j) ← part (← j.skip? ":")
      let (c, j) ← if j.sees ":" then part (← j.skip? ":") else some ([], j)
      some (j.node .group i.first (a ++ b ++ c), j)
    else if a.isEmpty then none
    else some (j.grouped i.first a, j)

/-- The arguments of a call or a class in their brackets. -/
def arguments : (fuel : Nat) → Reader Tree
  | 0, _ => none
  | fuel + 1, i => do
    let j ← i.skip? "("
    if j.sees ")" then
      let j ← j.skip? ")"
      some (j.node .arguments i.first [], j)
    else if j.sees "," then
      let j ← (← j.skip? ",").skip? ")"
      some (j.node .arguments i.first [], j)
    else
      let (t, k) ← argument fuel j
      if k.seesLoop then
        let (ts, k) ← loops fuel [] k
        let k ← k.skip? ")"
        some (k.node .group i.first (t :: ts), k)
      else
        let ((ts, _), k) ← commaTail (argument fuel) (·.sees ")") fuel false [t] k
        let k ← k.skip? ")"
        some (k.node .arguments i.first ts, k)

def argument : (fuel : Nat) → Reader Tree
  | 0, _ => none
  | fuel + 1, i =>
    if i.sees "*" || i.sees "**" then do
      let (_, j) ← i.take?
      let (t, j) ← expression fuel true j
      some (j.node .group i.first [t], j)
    else if i.seesName && i.seesSecond "=" then do
      let (t, j) ← i.name?
      let j ← j.skip? "="
      let (u, j) ← expression fuel true j
      some (j.node .keywordArgument i.first [t.as .keyword, u.as .value], j)
    else expression fuel true i

/-- A name, a literal or an expression in brackets. -/
def atom : (fuel : Nat) → Reader Tree
  | 0, _ => none
  | fuel + 1, i =>
    match i.rest with
    | [] => none
    | t :: _ =>
      match t.kind with
      | .text => texts fuel t [] i
      | .number => i.take?.map fun (_, j) => (j.node .group t [], j)
      | .name =>
        if t.isName then i.name?
        else if ["True", "False", "None"].contains t.word then
          i.take?.map fun (_, j) => (j.node .group t [], j)
        else none
      | .mark =>
        if t.word == "(" then bracketed fuel ")" i
        else if t.word == "[" then bracketed fuel "]" i
        else if t.word == "\x7b" then braced fuel i
        else if t.word == "..." then i.take?.map fun (_, j) => (j.node .group t [], j)
        else none
      | _ => none

/-- Quoted texts one after the other; the children are what stands in their replacement fields. -/
def texts : (fuel : Nat) → (first : Token) → (parts : List Tree) → Reader Tree
  | 0, _, _, _ => none
  | fuel + 1, first, parts, i =>
    match i.rest with
    | [] => none
    | t :: _ => do
      let (_, i) ← i.take?
      let fields ← t.fields.mapM (field fuel)
      let parts := fields.reverse ++ parts
      if !i.ended && (i.rest.head?.map (·.kind == .text)).getD false then texts fuel first parts i
      else some (i.node .group first parts.reverse, i)

def field : (fuel : Nat) → List Token → Option Tree
  | 0, _ => none
  | fuel + 1, ts => do
    let i : Input := { rest := ts, opened := ["\x7b"] }
    let (t, i) ← if i.sees "yield" then yielded fuel i else expressions fuel i
    let i ← i.skipIf "="
    match i.rest with
    | [] => some t
    | [last] => if last.kind == .conversion then some t else none
    | _ => none

/-- Expressions in round or square brackets, or a comprehension. -/
def bracketed : (fuel : Nat) → (close : String) → Reader Tree
  | 0, _, _ => none
  | fuel + 1, close, i => do
    let (_, j) ← i.take?
    if j.sees close then
      let j ← j.skip? close
      some (j.node .sequence i.first [], j)
    else
      let (t, j) ← element fuel j
      if j.seesLoop then
        let (ts, j) ← loops fuel [] j
        let j ← j.skip? close
        some (j.node .group i.first (t :: ts), j)
      else
        let ((ts, _), j) ← commaTail (element fuel) (·.sees close) fuel false [t] j
        let j ← j.skip? close
        some (j.node .sequence i.first ts, j)

/-- One item of a collection. -/
def element : (fuel : Nat) → Reader Tree
  | 0, _ => none
  | fuel + 1, i =>
    if i.sees "yield" then yielded fuel i
    else if i.sees "*" then do
      let (_, j) ← i.take?
      let (t, j) ← expression fuel true j
      some (j.node .starred i.first [t], j)
    else expression fuel true i

/-- A set, a dictionary or a comprehension of one of them. -/
def braced : (fuel : Nat) → Reader Tree
  | 0, _ => none
  | fuel + 1, i => do
    let (_, j) ← i.take?
    if j.sees "\x7d" then
      let j ← j.skip? "\x7d"
      some (j.node .group i.first [], j)
    else if j.sees "," then
      let j ← (← j.skip? ",").skip? "\x7d"
      some (j.node .group i.first [], j)
    else
      let (t, k) ← if j.sees "**" then pair fuel j else element fuel j
      let inDict := j.sees "**" || k.sees ":"
      let (ts, k) ←
        if k.sees ":" then do
          let (u, k) ← expression fuel true (← k.skip? ":")
          some ([u, t], k)
        else some ([t], k)
      let (ts, k) ←
        if k.seesLoop then do
          let (us, k) ← loops fuel [] k
          some (ts.reverse ++ us, k)
        else do
          let ((ts, _), k) ← commaTail (if inDict then pair fuel else element fuel) (·.sees "\x7d")
            fuel false ts k
          some (ts, k)
      let k ← k.skip? "\x7d"
      some (k.node .group i.first ts, k)

/-- One entry of a dictionary. -/
def pair : (fuel : Nat) → Reader Tree
  | 0, _ => none
  | fuel + 1, i =>
    if i.sees "**" then do
      let (_, j) ← i.take?
      let (t, j) ← expression fuel true j
      some (j.node .group i.first [t], j)
    else do
      let (t, j) ← expression fuel true i
      let (u, j) ← expression fuel true (← j.skip? ":")
      some (j.node .group i.first [t, u], j)

/-- The loops and filters of a comprehension, after `seen` in reverse. -/
def loops : (fuel : Nat) → (seen : List Tree) → Reader (List Tree)
  | 0, _, _ => none
  | fuel + 1, seen, i =>
    if i.seesLoop then do
      let j ← (← i.skipIf "async").skip? "for"
      let (t, j) ← targets fuel j
      let j ← j.skip? "in"
      let (u, j) ← commaList fuel (expression fuel false) Input.seesClose j
      loops fuel (j.node .group i.first [t, u] :: seen) j
    else if i.sees "if" then do
      let (t, j) ← expression fuel false (← i.skip? "if")
      loops fuel (j.node .group i.first [t] :: seen) j
    else some (seen.reverse, i)

def targets : (fuel : Nat) → Reader Tree
  | 0, _ => none
  | fuel + 1, i =>
    let target (i : Input) : Option (Tree × Input) := do
      let (t, j) ← if i.sees "*" then operand fuel i else primary fuel i
      if isTarget t then some (t, j) else none
    commaList fuel target (·.sees "in") i

def yielded : (fuel : Nat) → Reader Tree
  | 0, _ => none
  | fuel + 1, i => do
    let j ← i.skip? "yield"
    if j.goesOn "from" then
      let (t, j) ← expression fuel true (← j.skip? "from")
      some (j.node .group i.first [t], j)
    else if j.startsExpression then
      let (t, j) ← expressions fuel j
      some (j.node .group i.first [t], j)
    else some (j.node .group i.first [], j)

def expressions : (fuel : Nat) → Reader Tree
  | 0, _ => none
  | fuel + 1, i => commaList fuel (expression fuel true) (fun i => !i.startsExpression) i

def parameter : (fuel : Nat) → (typed : Bool) → Reader Tree
  | 0, _, _ => none
  | fuel + 1, typed, i => do
    if i.sees "/" then
      let j ← i.skip? "/"
      some (j.node .group i.first [], j)
    else if i.sees "*" || i.sees "**" then
      let (star, j) ← i.take?
      if !j.seesName then
        if star.word == "*" then some (j.node .group i.first [], j) else none
      else
        let (t, j) ← primary fuel j
        let s := j.node .starred i.first [t]
        if !isTarget s then none
        else if typed && j.sees ":" then
          let (u, j) ← typeAnnotation fuel (← j.skip? ":")
          some (j.node .typedParameter i.first [s, u], j)
        else some (s, j)
    else
      let (t, j) ← if i.sees "(" then bracketed fuel ")" i else i.name?
      if !isTarget t then none
      else
        let (types, j) ←
          if typed && j.sees ":" then do
            let (u, j) ← typeAnnotation fuel (← j.skip? ":")
            some ([u], j)
          else some ([], j)
        if j.sees "=" then
          let (u, j) ← expression fuel true (← j.skip? "=")
          some (j.node .defaultParameter i.first ((t.as .name :: types) ++ [u.as .value]), j)
        else if types.isEmpty then some (t, j)
        else some (j.node .typedParameter i.first (t :: types), j)

def typeAnnotation : (fuel : Nat) → Reader Tree
  | 0, _ => none
  | fuel + 1, i => do
    let (t, j) ←
      if i.sees "**" then do (← i.skip? "**").name?
      else expression fuel true i
    some (j.node .group i.first [t], j)

end

end AgentFlow.Code
