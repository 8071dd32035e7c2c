/-!
# Cursors

A place in a YAML text: the rest of the text with the line and the column where it starts, and the
kinds of characters that matter there.
-/

namespace AgentFlow.Yaml

structure Cursor where
  rest : List Char
  /-- The number of characters in front. -/
  index : Nat := 0
  line : Nat := 0
  column : Nat := 0

def isBlank (c : Char) : Bool := c == ' ' || c == '\t'

def isBreak (c : Char) : Bool :=
  c == '\n' || c == '\r' || c == '\x85' || c == '\u2028' || c == '\u2029'

def startsBlank : List Char → Bool
  | [] => true
  | c :: _ => isBlank c || isBreak c

/-- Whether a character may occur in a text at all. -/
def isPrintable (c : Char) : Bool :=
  let n := c.toNat
  n == 0x09 || n == 0x0a || n == 0x0d || (0x20 ≤ n && n ≤ 0x7e) || n == 0x85 ||
    (0xa0 ≤ n && n ≤ 0xd7ff) || (0xe000 ≤ n && n ≤ 0xfffd) || 0x10000 ≤ n

namespace Cursor

/-- The place behind a character that breaks no line. -/
def skip (c : Cursor) : Cursor :=
  { c with rest := c.rest.tail, index := c.index + 1, column := c.column + 1 }

def skipMany : (n : Nat) → Cursor → Cursor
  | 0, c => c
  | n + 1, c => skipMany n c.skip

/-- The break at a place as it is kept, and the place behind it. -/
def lineBreak? (c : Cursor) : Option (Char × Cursor) :=
  match c.rest with
  | '\r' :: '\n' :: rest => some ('\n', ⟨rest, c.index + 2, c.line + 1, 0⟩)
  | d :: rest =>
    if isBreak d then
      some (if d == '\u2028' || d == '\u2029' then d else '\n', ⟨rest, c.index + 1, c.line + 1, 0⟩)
    else none
  | [] => none

/-- The place behind the characters that `p` accepts, with them. -/
def takeWhile (p : Char → Bool) (c : Cursor) : List Char × Cursor :=
  let taken := c.rest.takeWhile p
  (taken, skipMany taken.length c)

/-- The place behind the characters that `p` accepts. -/
def skipWhile (p : Char → Bool) (c : Cursor) : Cursor := (c.takeWhile p).2

/-- Whether `head` stands here as a word of its own at the start of a line. -/
def isMark (head : String) (c : Cursor) : Bool :=
  c.column == 0 && head.toList.isPrefixOf c.rest && startsBlank (c.rest.drop head.length)

def isDocumentMark (c : Cursor) : Bool := c.isMark "---" || c.isMark "..."

end Cursor

end AgentFlow.Yaml
