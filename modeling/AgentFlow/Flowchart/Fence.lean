import AgentFlow.Text.Blank

/-!
# Diagrams in documents

A diagram stands between a line that opens its fence and a line that closes it.
-/

namespace AgentFlow.Flowchart

structure Diagram where
  line : Nat
  body : String
deriving DecidableEq

structure Diagrams where
  found : List Diagram := []
  unclosed? : Option Nat := none
deriving DecidableEq

def opensFence (line : String) : Bool := Text.trim line == "```mermaid"

def closesFence (line : String) : Bool := Text.trim line == "```"

def bodyOf (lines : List String) : String := "\n".intercalate lines

/-- The diagrams in the lines from number `n` on.  `inside` holds the first line of an open diagram
and the lines of it so far, in reverse. -/
def scan (n : Nat) (inside : Option (Nat × List String)) : List String → Diagrams
  | [] =>
    match inside with
    | none => {}
    | some (start, body) => ⟨[⟨start, bodyOf body.reverse⟩], some (start - 1)⟩
  | line :: rest =>
    match inside with
    | none => scan (n + 1) (if opensFence line then some (n + 1, []) else none) rest
    | some (start, body) =>
      if closesFence line then
        let more := scan (n + 1) none rest
        { more with found := ⟨start, bodyOf body.reverse⟩ :: more.found }
      else scan (n + 1) (some (start, line :: body)) rest

def Diagrams.ofDocument (content : String) : Diagrams := scan 1 none (Text.lines content)

end AgentFlow.Flowchart
