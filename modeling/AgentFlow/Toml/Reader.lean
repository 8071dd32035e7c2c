import AgentFlow.Toml.Scalar

/-!
# Reading TOML

A document is a list of members, and of tables under headings.  No key may be given twice: a table
under a heading is closed once it is stated, a table that dotted keys make can only grow by dotted
keys, and one that a longer heading implies can still get a heading of its own.
-/

namespace AgentFlow.Toml

open Data

/-! ## Tables under construction -/

inductive Origin where
  /-- By a heading or braces of its own. -/
  | stated
  /-- By the heading of a table inside of it. -/
  | implied
  /-- By dotted keys. -/
  | dotted
  deriving DecidableEq

/-- A value, a table, or the tables of a list, while the document is read. -/
inductive Node where
  | leaf (v : Value)
  | table (origin : Origin) (members : List (String × Node))
  | tables (items : List (List (String × Node)))

abbrev Members := List (String × Node)

mutual

def Node.value : Node → Value
  | .leaf v => v
  | .table _ members => .table (membersValue members)
  | .tables items => .list (itemsValue items)

def membersValue : List (String × Node) → List (String × Value)
  | [] => []
  | (k, n) :: rest => (k, n.value) :: membersValue rest

def itemsValue : List (List (String × Node)) → List Value
  | [] => []
  | members :: rest => .table (membersValue members) :: itemsValue rest

end

def find? (key : String) (members : Members) : Option Node :=
  (members.find? (·.1 == key)).map (·.2)

def set (key : String) (n : Node) : Members → Members
  | [] => [(key, n)]
  | (k, m) :: rest => if k == key then (k, n) :: rest else (k, m) :: set key n rest

/-- The members with a node behind dotted keys.  The table that gets it has to be one of dotted
keys, unless there is only one key. -/
def insert (n : Node) : (path : List String) → Members → Option Members
  | [], _ => none
  | [key], members => if (find? key members).isSome then none else some (set key n members)
  | key :: next :: path, members =>
    let inside (open' : Bool) (inner : Members) : Option Members :=
      if open' || !path.isEmpty then insert n (next :: path) inner else none
    match find? key members with
    | none => (inside true []).map fun inner => set key (.table .dotted inner) members
    | some (.table .dotted inner) =>
      (inside true inner).map fun inner => set key (.table .dotted inner) members
    | some (.table .implied inner) =>
      (inside false inner).map fun inner => set key (.table .implied inner) members
    | some (.tables items) =>
      match items.getLast? with
      | some last => (inside false last).map fun last =>
        set key (.tables (items.dropLast ++ [last])) members
      | none => none
    | some _ => none

/-- The members with the node behind the keys of a heading changed by `f`. -/
def update (f : Option Node → Option Node) : (path : List String) → Members → Option Members
  | [], _ => none
  | [key], members => (f (find? key members)).map fun n => set key n members
  | key :: next :: path, members =>
    match find? key members with
    | none =>
      (update f (next :: path) []).map fun inner => set key (.table .implied inner) members
    | some (.table origin inner) =>
      (update f (next :: path) inner).map fun inner => set key (.table origin inner) members
    | some (.tables items) =>
      match items.getLast? with
      | some last => (update f (next :: path) last).map fun last =>
        set key (.tables (items.dropLast ++ [last])) members
      | none => none
    | some (.leaf _) => none

/-! ## Keys and values -/

/-- Whether a character may stand in a key without quotes. -/
def isKeyChar (c : Char) : Bool := c.isAlphanum || c == '_' || c == '-'

def simpleKey? (fuel : Nat) (cs : List Char) : Option (String × List Char) :=
  match cs with
  | '"' :: rest => basicBody fuel [] rest
  | '\'' :: rest => literalBody rest
  | _ =>
    match cs.span isKeyChar with
    | ([], _) => none
    | (key, rest) => some (String.ofList key, rest)

/-- Keys with points between them, and blanks around them. -/
def keys? : (fuel : Nat) → List Char → Option (List String × List Char)
  | 0, _ => none
  | fuel + 1, cs => do
    let (key, rest) ← simpleKey? fuel (skipSpace cs)
    match skipSpace rest with
    | '.' :: rest =>
      let (more, rest) ← keys? fuel rest
      some (key :: more, rest)
    | rest => some ([key], rest)

/-- The text behind a comment, if one starts here. -/
def skipComment : List Char → List Char
  | '#' :: rest => rest.dropWhile isPlainChar
  | cs => cs

def skipLines : (fuel : Nat) → List Char → List Char
  | 0, cs => cs
  | fuel + 1, cs =>
    match lineBreak? (skipComment (skipSpace cs)) with
    | some rest => skipLines fuel rest
    | none => skipComment (skipSpace cs)

mutual

def value? : (fuel : Nat) → List Char → Option (Value × List Char)
  | 0, _ => none
  | fuel + 1, cs =>
    match cs with
    | '[' :: rest => (items? fuel rest).map fun (items, rest) => (.list items, rest)
    | '\x7b' :: rest =>
      match skipSpace rest with
      | '\x7d' :: rest => some (.table [], rest)
      | rest => (inlineMembers? fuel [] rest).map fun (members, rest) =>
        (.table (membersValue members), rest)
    | '"' :: _ => (text? fuel cs).map fun (s, rest) => (.text s, rest)
    | '\'' :: _ => (text? fuel cs).map fun (s, rest) => (.text s, rest)
    | _ => scalar? cs

/-- The items of a list up to its closing bracket. -/
def items? : (fuel : Nat) → List Char → Option (List Value × List Char)
  | 0, _ => none
  | fuel + 1, cs =>
    match skipLines fuel cs with
    | ']' :: rest => some ([], rest)
    | cs => do
      let (v, rest) ← value? fuel cs
      match skipLines fuel rest with
      | ',' :: rest =>
        let (vs, rest) ← items? fuel rest
        some (v :: vs, rest)
      | ']' :: rest => some ([v], rest)
      | _ => none

/-- The members of a table between braces, behind those that are known, up to its closing brace. -/
def inlineMembers? : (fuel : Nat) → Members → List Char → Option (Members × List Char)
  | 0, _, _ => none
  | fuel + 1, members, cs => do
    let (path, v, rest) ← member? fuel cs
    let members ← insert (.leaf v) path members
    match rest with
    | ',' :: rest => inlineMembers? fuel members rest
    | '\x7d' :: rest => some (members, rest)
    | _ => none

/-- A key with its value, and the rest behind the blanks after them. -/
def member? : (fuel : Nat) → List Char → Option (List String × Value × List Char)
  | 0, _ => none
  | fuel + 1, cs => do
    let (path, rest) ← keys? fuel cs
    let rest ← behind? "=" rest
    let (v, rest) ← value? fuel (skipSpace rest)
    some (path, v, skipSpace rest)

end

/-! ## Documents -/

inductive Heading where
  | table (path : List String)
  | item (path : List String)

def heading? (fuel : Nat) (cs : List Char) : Option (Heading × List Char) :=
  match cs with
  | '[' :: rest => do
    let (path, rest) ← keys? fuel rest
    some (.item path, ← behind? "]]" rest)
  | _ => do
    let (path, rest) ← keys? fuel cs
    some (.table path, ← behind? "]" rest)

/-- The members of the document with those under a heading put to their place. -/
def close (root : Members) (heading : Option Heading) (own : List (List String × Value)) :
    Option Members :=
  let build (members : Members) : Option Members :=
    own.foldlM (fun ms (path, v) => insert (.leaf v) path ms) members
  match heading with
  | none => build root
  | some (.table path) => update (fun old =>
      match old with
      | none => (build []).map (.table .stated)
      | some (.table .implied members) => (build members).map (.table .stated)
      | some _ => none) path root
  | some (.item path) => update (fun old =>
      match old with
      | none => (build []).map fun members => .tables [members]
      | some (.tables items) => (build []).map fun members => .tables (items ++ [members])
      | some _ => none) path root

def endLine? (cs : List Char) : Option (List Char) :=
  match skipComment (skipSpace cs) with
  | [] => some []
  | rest => lineBreak? rest

/-- Reads the rest of a document under a heading; `own` holds the members under it. -/
def readFrom :
    (fuel : Nat) → (root : Members) → Option Heading → (own : List (List String × Value)) →
      List Char → Option Members
  | 0, _, _, _, _ => none
  | fuel + 1, root, heading, own, cs =>
    match skipLines fuel cs with
    | [] => close root heading own
    | '[' :: rest => do
      let root ← close root heading own
      let (next, rest) ← heading? fuel rest
      readFrom fuel root (some next) [] (← endLine? rest)
    | cs => do
      let (path, v, rest) ← member? fuel cs
      readFrom fuel root heading (own ++ [(path, v)]) (← endLine? rest)

def read? (s : String) : Option Value :=
  let cs :=
    match s.toList with
    | '\ufeff' :: rest => rest
    | cs => cs
  (readFrom (2 * cs.length + 2) [] none [] cs).map fun members => .table (membersValue members)

end AgentFlow.Toml
