import AgentFlow.Data.Value
import AgentFlow.Text.Quoted

/-!
# Writing TOML

A table is written with its plain members first and its tables after them, each under a heading.
A list with more than one item has every item on a line of its own.  A text is written in the first
of the ways that need no escapes: between double quotes, between single quotes, and between three of
either kind.
-/

namespace AgentFlow.Toml

open Data Number

def longestRun (c : Char) : List Char → Nat
  | [] => 0
  | d :: rest =>
    if d == c then max (1 + (rest.takeWhile (· == c)).length) (longestRun c rest)
    else longestRun c rest

/-- Whether a character can only be written as an escape. -/
def needsCode (c : Char) : Bool := (c.toNat < 0x20 && c != '\t' && c != '\n') || c == '\x7f'

/-- Whether a text can stand between as many single quotes as `quotes`. -/
def isLiteral (quotes : Nat) (cs : List Char) : Bool :=
  !cs.any needsCode && longestRun '\'' cs < quotes && (quotes > 1 || !cs.contains '\n')

/-- Whether a text can stand between as many double quotes as `quotes` without escapes. -/
def isPlain (quotes : Nat) (cs : List Char) : Bool :=
  !cs.any needsCode && !cs.contains '\\' && longestRun '"' cs < quotes &&
    (quotes > 1 || !cs.contains '\n')

def upperHexDigit (n : Nat) : Char :=
  if n < 10 then Char.ofNat (0x30 + n) else Char.ofNat (0x41 + n - 10)

/-- The characters that stand for `c`, which is no quote, between double quotes. -/
def escaped (lineFeeds : Bool) (c : Char) : List Char :=
  if c == '\x08' then ['\\', 'b']
  else if c == '\t' then ['\\', 't']
  else if c == '\n' then if lineFeeds then ['\n'] else ['\\', 'n']
  else if c == '\x0c' then ['\\', 'f']
  else if c == '\r' then ['\\', 'r']
  else if c == '\\' then ['\\', '\\']
  else if c.toNat < 0x20 || c == '\x7f' then
    ['\\', 'u', '0', '0', upperHexDigit (c.toNat / 16), upperHexDigit (c.toNat % 16)]
  else [c]

/-- The characters that stand for a text between double quotes.  A quote is escaped once `run`
quotes in a row have been written. -/
def escapedFrom (longest run : Nat) : List Char → List Char
  | [] => []
  | c :: rest =>
    if c == '"' then
      if run < longest then '"' :: escapedFrom longest (run + 1) rest
      else '\\' :: '"' :: escapedFrom longest 0 rest
    else escaped (longest > 0) c ++ escapedFrom longest 0 rest

/-- A text on several lines starts on a line of its own. -/
def opening (quotes : List Char) (cs : List Char) : List Char :=
  quotes ++ if cs.contains '\n' then ['\n'] else []

def textChars (cs : List Char) : List Char :=
  let three := ['"', '"', '"']
  if isPlain 1 cs then '"' :: escapedFrom 0 0 cs ++ ['"']
  else if isLiteral 1 cs then '\'' :: cs ++ ['\'']
  else if isPlain 3 cs then opening three cs ++ escapedFrom 2 0 cs ++ three
  else if isLiteral 3 cs then opening ['\'', '\'', '\''] cs ++ cs ++ ['\'', '\'', '\'']
  else if cs.contains '\n' then opening three cs ++ escapedFrom 2 0 cs ++ three
  else '"' :: escapedFrom 0 0 cs ++ ['"']

def text (s : String) : String := String.ofList (textChars s.toList)

mutual

def value : Value → String
  | .null => ""
  | .bool true => "true"
  | .bool false => "false"
  | .int n => toString n
  | .real x => Double.text x
  | .single x => Single.pointed x
  | .text s => text s
  | .bare s => text s
  | .list [] => "[]"
  | .list [v] => "[" ++ value v ++ "]"
  | .list (v :: w :: vs) => "[\n" ++ items (v :: w :: vs) ++ "]"
  | .table _ => ""

def items : List Value → String
  | [] => ""
  | v :: vs => "    " ++ value v ++ ",\n" ++ items vs

end

def plainMembers : List (String × Value) → String
  | [] => ""
  | (_, .table _) :: rest => plainMembers rest
  | (k, v) :: rest => k ++ " = " ++ value v ++ "\n" ++ plainMembers rest

/-- The tables in a table, each under its heading. -/
def tables : List (String × Value) → String
  | [] => ""
  | (k, .table members) :: rest => "\n[" ++ k ++ "]\n" ++ plainMembers members ++ tables rest
  | _ :: rest => tables rest

/-- A document of plain members and of tables that hold plain members. -/
def document : Value → String
  | .table members => plainMembers members ++ tables members
  | _ => ""

end AgentFlow.Toml
