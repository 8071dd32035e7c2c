import AgentFlow.Data.Value
import AgentFlow.Yaml.Lexer

/-!
# From tokens to a value

A YAML text holds exactly one document.  Plain scalars stay bare, so that their reader decides what
they stand for; an alias stands for the value at its anchor.
-/

namespace AgentFlow.Yaml

open Data

/-- The values at the anchors that have been read, the latest first. -/
abbrev Anchors := List (String × Value)

structure Input where
  tokens : List Token
  anchors : Anchors := []

abbrev Outcome := Option (Value × Input)

namespace Input

def next? (i : Input) : Option Token := i.tokens.head?

def skip (i : Input) : Input := { i with tokens := i.tokens.tail }

def isNext (i : Input) (t : Token) : Bool := i.next? == some t

def isAny (i : Input) (ts : List Token) : Bool := ts.any i.isNext

end Input

def emptyValue : Value := .bare ""

def tableOf (members : List (Value × Value)) : Value :=
  match members.mapM fun (k, v) => k.text?.map (·, v) with
  | some members => .table members
  | none => .null

/-- The anchor and the tag in front of a node, in any order, each at most once. -/
def properties (i : Input) : Option String × Option String × Input :=
  match i.tokens with
  | .anchor a :: .tag t :: rest => (some a, some t, { i with tokens := rest })
  | .tag t :: .anchor a :: rest => (some a, some t, { i with tokens := rest })
  | .anchor a :: rest => (some a, none, { i with tokens := rest })
  | .tag t :: rest => (none, some t, { i with tokens := rest })
  | _ => (none, none, i)

/-- A value with a tag.  A tag of its own in front of nothing is a name without a value. -/
def tagged (tag : Option String) (v : Value) : Value :=
  match tag.map String.toList with
  | some ('!' :: c :: rest) =>
    if v.isNull && c != '!' then .table [(String.ofList (c :: rest), .null)] else v
  | _ => v

/-- A value that an anchor may stand in front of. -/
def anchored (anchor : Option String) (o : Outcome) : Outcome :=
  match anchor with
  | none => o
  | some a => o.map fun (v, i) => (v, { i with anchors := (a, v) :: i.anchors })

mutual

/-- A node.  Blocks count if `blocks` holds, and lists without indentation if `loose` holds. -/
def node? (blocks loose : Bool) : (fuel : Nat) → Input → Outcome
  | 0, _ => none
  | fuel + 1, i =>
    match i.next? with
    | some (.alias a) => (i.anchors.find? (·.1 == a)).map fun (_, v) => (v, i.skip)
    | _ =>
      let (anchor, tag, i) := properties i
      let content : Outcome :=
        match i.next? with
        | some (.scalar true s) => some (.bare s, i.skip)
        | some (.scalar false s) => some (.text s, i.skip)
        | some .flowListStart => (flowItems? true fuel i.skip).map fun (vs, i) => (.list vs, i)
        | some .flowTableStart => (flowMembers? true fuel i.skip).map fun (ms, i) => (tableOf ms, i)
        | t =>
          if loose && t == some .entry then
            (looseItems? fuel i).map fun (vs, i) => (.list vs, i)
          else if blocks && t == some .blockListStart then
            (blockItems? fuel i.skip).map fun (vs, i) => (.list vs, i)
          else if blocks && t == some .blockTableStart then
            (blockMembers? fuel i.skip).map fun (ms, i) => (tableOf ms, i)
          else if anchor.isSome || tag.isSome then some (emptyValue, i)
          else none
      anchored anchor (content.map fun (v, i) => (tagged tag v, i))

def optional? (blocks loose : Bool) (ends : List Token) : (fuel : Nat) → Input → Outcome
  | 0, _ => none
  | fuel + 1, i => if i.isAny ends then some (emptyValue, i) else node? blocks loose fuel i

def blockItems? : (fuel : Nat) → Input → Option (List Value × Input)
  | 0, _ => none
  | fuel + 1, i =>
    if i.isNext .entry then do
      let (v, i) ← optional? true false [.entry, .blockEnd] fuel i.skip
      let (vs, i) ← blockItems? fuel i
      some (v :: vs, i)
    else if i.isNext .blockEnd then some ([], i.skip)
    else none

/-- The entries of a list at the column of the table around it. -/
def looseItems? : (fuel : Nat) → Input → Option (List Value × Input)
  | 0, _ => none
  | fuel + 1, i =>
    if i.isNext .entry then do
      let (v, i) ← optional? true false [.entry, .key, .value, .blockEnd] fuel i.skip
      let (vs, i) ← looseItems? fuel i
      some (v :: vs, i)
    else some ([], i)

def blockMembers? : (fuel : Nat) → Input → Option (List (Value × Value) × Input)
  | 0, _ => none
  | fuel + 1, i =>
    if i.isNext .key then do
      let (k, i) ← optional? true true [.key, .value, .blockEnd] fuel i.skip
      let (v, i) ←
        if i.isNext .value then optional? true true [.key, .value, .blockEnd] fuel i.skip
        else some (emptyValue, i)
      let (ms, i) ← blockMembers? fuel i
      some ((k, v) :: ms, i)
    else if i.isNext .blockEnd then some ([], i.skip)
    else none

def flowItems? (first : Bool) : (fuel : Nat) → Input → Option (List Value × Input)
  | 0, _ => none
  | fuel + 1, i => do
    if i.isNext .flowListEnd then return ([], i.skip)
    let i ← if first then some i else if i.isNext .comma then some i.skip else none
    if i.isNext .flowListEnd then return ([], i.skip)
    if i.isNext .key then
      let (m, i) ← flowPair? fuel i.skip
      let (vs, i) ← flowItems? false fuel i
      some (tableOf [m] :: vs, i)
    else
      let (v, i) ← node? false false fuel i
      let (vs, i) ← flowItems? false fuel i
      some (v :: vs, i)

/-- A table of one member that stands for an item between square brackets. -/
def flowPair? : (fuel : Nat) → Input → Option ((Value × Value) × Input)
  | 0, _ => none
  | fuel + 1, i => do
    let ends := [.value, .comma, .flowListEnd]
    let (k, i) ← if i.isAny ends then some (emptyValue, i.skip) else node? false false fuel i
    let (v, i) ←
      if i.isNext .value then optional? false false [.comma, .flowListEnd] fuel i.skip
      else some (emptyValue, i)
    some ((k, v), i)

def flowMembers? (first : Bool) : (fuel : Nat) → Input → Option (List (Value × Value) × Input)
  | 0, _ => none
  | fuel + 1, i => do
    if i.isNext .flowTableEnd then return ([], i.skip)
    let i ← if first then some i else if i.isNext .comma then some i.skip else none
    if i.isNext .flowTableEnd then return ([], i.skip)
    if i.isNext .key then
      let (k, i) ← optional? false false [.value, .comma, .flowTableEnd] fuel i.skip
      let (v, i) ←
        if i.isNext .value then optional? false false [.comma, .flowTableEnd] fuel i.skip
        else some (emptyValue, i)
      let (ms, i) ← flowMembers? false fuel i
      some ((k, v) :: ms, i)
    else
      let (k, i) ← node? false false fuel i
      let (ms, i) ← flowMembers? false fuel i
      some ((k, emptyValue) :: ms, i)

end

def skipEnds (ts : List Token) : List Token := ts.dropWhile (· == .documentEnd)

def content? (fuel : Nat) (i : Input) : Outcome :=
  optional? true false [.directive, .documentStart, .documentEnd, .streamEnd] fuel i

def read? (s : String) : Option Value := do
  let tokens ← tokensOf? s
  let fuel := 3 * tokens.length + 3
  let start := tokens.dropWhile (· == .directive)
  let (v, i) ←
    match start with
    | .documentStart :: rest => content? fuel { tokens := rest }
    | .streamEnd :: _ => none
    | _ => if start.length < tokens.length then none else node? true false fuel { tokens := tokens }
  if skipEnds i.tokens == [.streamEnd] then some v else none

end AgentFlow.Yaml
