import AgentFlow.Lint.Violation
import AgentFlow.Text.Blank
import AgentFlow.Text.Case

/-!
# Rules on lines

Rules that need no syntax tree.  The class and the method that a line belongs to are followed by
indentation: a header opens a scope, and a line of code that is not indented further closes it.
`LineScope.step` reads one line of code, and `checkLines` all lines of a text.
-/

namespace AgentFlow.Lint

/-! ## Forms of lines -/

def afterWord? (word : String) (cs : List Char) : Option (List Char) :=
  if word.toList.isPrefixOf cs then
    match cs.drop word.length with
    | c :: rest => if Text.isBlank c then some (Text.dropBlank rest) else none
    | [] => none
  else none

def word? (cs : List Char) : Option (String × List Char) :=
  match cs.takeWhile Text.isWordChar with
  | [] => none
  | w => some (String.ofList w, cs.dropWhile Text.isWordChar)

/-- What a line states that opens a class: its name and the names of its bases. -/
structure ClassHeader where
  name : String
  bases : List String

/-- The names of the bases between two brackets, each without its modules. -/
def baseNames (cs : List Char) : List String :=
  (Text.splitWhere (· == ',') cs).map fun b =>
    let b := Text.dropBlankEnd (Text.dropBlank b)
    String.ofList ((Text.splitWhere (· == '.') b).getLast?.getD [])

def classHeader? (line : List Char) : Option ClassHeader := do
  let rest ← afterWord? "class" (Text.dropBlank line)
  let (name, rest) ← word? rest
  let rest := Text.dropBlank rest
  let (bases, rest) ←
    match rest with
    | '(' :: inner =>
      match inner.dropWhile (· != ')') with
      | [] => none
      | _ :: rest => some (baseNames (inner.takeWhile (· != ')')), Text.dropBlank rest)
    | rest => some ([], rest)
  if rest.head? == some ':' then some ⟨name, bases⟩ else none

/-- Reads a line that opens a function, and gives its name. -/
def functionHeader? (line : List Char) : Option String := do
  let rest := Text.dropBlank line
  let rest := (afterWord? "async" rest).getD rest
  let rest ← afterWord? "def" rest
  let (name, rest) ← word? rest
  if (Text.dropBlank rest).head? == some '(' then some name else none

/-- Whether the text holds the word `in` between blanks, and a colon further on, with at least one
character before the word and between the blank and the colon. -/
def holdsIn : List Char → Bool
  | _ :: b :: rest =>
    (match b :: rest with
    | b :: 'i' :: 'n' :: c :: _ :: after => Text.isBlank b && Text.isBlank c && after.contains ':'
    | _ => false) || holdsIn (b :: rest)
  | _ => false

def isForLoop (line : List Char) : Bool :=
  let rest := Text.dropBlank line
  "for".toList.isPrefixOf rest &&
    match rest.drop 3 with
    | c :: rest => Text.isBlank c && holdsIn rest
    | [] => false

def blockingFunctions : List String :=
  ["requests.get", "requests.post", "requests.put", "requests.patch", "requests.delete",
    "requests.head", "requests.request", "httpx.get", "httpx.post", "httpx.put", "httpx.patch",
    "httpx.delete", "httpx.request", "urllib.request.urlopen", "urlopen"]

/-- The first call of a blocking function that starts a word, where `inWord` tells whether a word
character stands before the text. -/
def blockingCall? (inWord : Bool) : List Char → Option String
  | [] => none
  | c :: rest =>
    let here :=
      if inWord then none
      else blockingFunctions.find? fun f =>
        f.toList.isPrefixOf (c :: rest) &&
          (Text.dropBlank ((c :: rest).drop f.length)).head? == some '('
    match here with
    | some f => some f
    | none => blockingCall? (Text.isWordChar c) rest

def indentWidth (line : List Char) : Nat :=
  (line.takeWhile Text.isBlank).foldl (fun n c => n + c.utf8Size) 0

/-- Whether the line holds anything but blanks and a comment. -/
def isCode (line : List Char) : Bool :=
  match Text.dropBlank line with
  | [] => false
  | c :: _ => c != '#'

/-! ## Scopes -/

structure ClassScope where
  name : String
  indent : Nat
  isNode : Bool
  isBatch : Bool
  isAsync : Bool

structure MethodScope where
  name : String
  indent : Nat

/-- The innermost class and its method that a line belongs to. -/
structure LineScope where
  cls? : Option ClassScope := none
  method? : Option MethodScope := none

namespace LineScope

def close (s : LineScope) (indent : Nat) : LineScope :=
  if s.cls?.any (indent ≤ ·.indent) then {}
  else if s.method?.any (indent ≤ ·.indent) then { s with method? := none }
  else s

def ofClass (h : ClassHeader) (indent : Nat) : LineScope :=
  { cls? := some
      { name := h.name
        indent := indent
        isNode := h.bases.any fun b => Text.endsWith b "Node"
        isBatch := h.bases.any fun b => Text.contains b "Batch"
        isAsync := h.bases.any fun b => Text.startsWith b "Async" } }

/-- What is found on a line that opens no scope. -/
def findings (path : String) (s : LineScope) (number : Nat) (line : List Char) : List Violation :=
  match s.cls? with
  | none => []
  | some c =>
    if !c.isNode then []
    else
      let method := (s.method?.map (·.name)).getD "<class body>"
      let loop :=
        if !c.isBatch && Text.startsWith method "exec" && isForLoop line then
          [Violation.of .loopInNonBatchNode path number
            (c.name ++ "." ++ method ++ " loops over items in a non-batch node")
            "Use BatchNode and return the items from prep so exec runs once per item"]
        else []
      let blocking :=
        match if c.isAsync then none else blockingCall? false line with
        | some call =>
          [Violation.of .blockingCallInSyncNode path number
            (c.name ++ "." ++ method ++ " makes a blocking network call (" ++ call ++ ")")
            "Use AsyncNode with an async HTTP client for network I/O"]
        | none => []
      loop ++ blocking

/-- What a line does to the scope, and what is found on it. -/
def step (path : String) (s : LineScope) (number : Nat) (line : List Char) :
    LineScope × List Violation :=
  if !isCode line then (s, [])
  else
    let indent := indentWidth line
    let s := s.close indent
    match classHeader? line with
    | some h => (ofClass h indent, [])
    | none =>
      match functionHeader? line with
      | some name =>
        if s.cls?.isSome && s.method?.isNone then ({ s with method? := some ⟨name, indent⟩ }, [])
        else (s, [])
      | none => (s, s.findings path number line)

/-- What is found on the lines, the first of which has the given number. -/
def run (path : String) (s : LineScope) (number : Nat) : List (List Char) → List Violation
  | [] => []
  | line :: rest =>
    let (s, found) := s.step path number line
    found ++ run path s (number + 1) rest

end LineScope

def checkLines (path source : String) : List Violation :=
  LineScope.run path {} 1 (Text.linesOf source.toList)

end AgentFlow.Lint
