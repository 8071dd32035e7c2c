import AgentFlow.Yaml.Scalar

/-!
# From text to tokens

Blocks open and close by indentation.  A key is only known by the colon behind it: the lexer
remembers for every level of brackets where a key may have started, and puts the token of the key
there once it comes to the colon.  A key stands on a single line and has at most 1024 characters.
-/

namespace AgentFlow.Yaml

/-- A token.  The blocks that indentation makes have tokens of their own, and so have keys, also
where no mark stands in front of them. -/
inductive Token where
  | streamEnd
  /-- A directive about the version or about tags. -/
  | directive
  | documentStart
  | documentEnd
  | blockListStart
  | blockTableStart
  | blockEnd
  | flowListStart
  | flowListEnd
  | flowTableStart
  | flowTableEnd
  | entry
  | comma
  | key
  | value
  | alias (name : String)
  | anchor (name : String)
  | tag (text : String)
  | scalar (plain : Bool) (text : String)
  deriving DecidableEq

structure KeyStart where
  /-- Whether only a key can stand there. -/
  needed : Bool
  /-- The number of tokens in front of it. -/
  tokens : Nat
  place : Cursor

def longestKey : Nat := 1024

structure Lexer where
  place : Cursor
  tokens : Array Token := #[]
  /-- The column of the block that is open, or `-1`. -/
  indent : Int := -1
  /-- The columns of the blocks around it, the nearest first. -/
  outer : List Int := []
  /-- Whether a key may start here. -/
  keyAllowed : Bool := true
  /-- The possible key at the level of the brackets that are open. -/
  keyStart : Option KeyStart := none
  /-- The possible keys at the levels around it, the nearest first; one for each open bracket. -/
  outerKeys : List (Option KeyStart) := []

namespace Lexer

def inFlow (l : Lexer) : Bool := !l.outerKeys.isEmpty

def emit (l : Lexer) (t : Token) : Lexer := { l with tokens := l.tokens.push t }

def skip (l : Lexer) (n : Nat) : Lexer := { l with place := Cursor.skipMany n l.place }

def putAt (index : Nat) (t : Token) (tokens : Array Token) : Array Token :=
  tokens.extract 0 index ++ #[t] ++ tokens.extract index tokens.size

/-! ## Keys -/

/-- Whether a possible key is too long or not on the line that has been reached. -/
def KeyStart.isStale (k : KeyStart) (place : Cursor) : Bool :=
  k.place.line < place.line || k.place.index + longestKey < place.index

def freshKey (place : Cursor) : Option KeyStart → Option (Option KeyStart)
  | none => some none
  | some k =>
    if KeyStart.isStale k place then if k.needed then none else some none else some (some k)

/-- Forgets all possible keys that are no longer ones. -/
def dropStale (l : Lexer) : Option Lexer := do
  let own ← freshKey l.place l.keyStart
  let outer ← l.outerKeys.mapM (freshKey l.place)
  some { l with keyStart := own, outerKeys := outer }

def dropKey (l : Lexer) : Option Lexer :=
  if l.keyStart.any (·.needed) then none else some { l with keyStart := none }

def saveKey (l : Lexer) : Option Lexer :=
  if l.keyAllowed then
    (l.dropKey).map fun m => { m with
      keyStart := some ⟨!l.inFlow && l.indent == (l.place.column : Int), l.tokens.size, l.place⟩ }
  else some l

/-! ## Blocks -/

/-- Opens a block at a column behind the open one; its token goes to the index `index`. -/
def openBlock (l : Lexer) (column index : Nat) (t : Token) : Lexer :=
  if !l.inFlow && l.indent < (column : Int) then
    { l with
      tokens := putAt index t l.tokens
      indent := column
      outer := l.indent :: l.outer }
  else l

/-- Closes blocks from the list of their columns until one is at most at `column`. -/
def closeFrom (column : Int) (tokens : Array Token) (indent : Int) :
    List Int → Array Token × Int × List Int
  | [] => (tokens, indent, [])
  | next :: outer =>
    if column < indent then closeFrom column (tokens.push .blockEnd) next outer
    else (tokens, indent, next :: outer)

def closeBlocks (l : Lexer) (column : Int) : Lexer :=
  if l.inFlow then l
  else
    let (tokens, indent, outer) := closeFrom column l.tokens l.indent l.outer
    { l with tokens := tokens, indent := indent, outer := outer }

/-! ## Between tokens -/

/-- Skips blanks, comments and breaks.  Tabs count as blanks where no key may start. -/
def skipSpace : (fuel : Nat) → Lexer → Lexer
  | 0, l => l
  | fuel + 1, l =>
    let tabs := l.inFlow || !l.keyAllowed
    let c := l.place.skipWhile fun d => d == ' ' || (tabs && d == '\t')
    let c := if c.rest.head? == some '#' then c.skipWhile fun d => !isBreak d else c
    match c.lineBreak? with
    | some (_, next) =>
      skipSpace fuel { l with place := next, keyAllowed := l.keyAllowed || !l.inFlow }
    | none => { l with place := c }

/-! ## Single tokens -/

def documentMark (l : Lexer) (t : Token) : Option Lexer := do
  let l ← (l.closeBlocks (-1)).dropKey
  some (({ l with keyAllowed := false }.skip 3).emit t)

/-- The number of characters of a directive that is known: a version of YAML, or a tag. -/
def isDirective (line : List Char) : Bool :=
  let words := ((String.ofList line).splitOn " ").filter (· != "")
  match words with
  | "%YAML" :: version :: rest =>
    (version == "1.1" || version == "1.2") && rest.head?.all (·.startsWith "#")
  | "%TAG" :: handle :: _ :: rest => handle.startsWith "!" && rest.head?.all (·.startsWith "#")
  | _ => false

def directive (l : Lexer) : Option Lexer := do
  let l ← (l.closeBlocks (-1)).dropKey
  let (line, c) := l.place.takeWhile fun d => !isBreak d
  if isDirective line then some ({ l with keyAllowed := false, place := c }.emit .directive)
  else none

def openFlow (l : Lexer) (t : Token) : Option Lexer := do
  let l ← l.saveKey
  some (({ l with
    keyStart := none
    outerKeys := l.keyStart :: l.outerKeys
    keyAllowed := true }.skip 1).emit t)

def closeFlow (l : Lexer) (t : Token) : Option Lexer := do
  let l ← l.dropKey
  let l :=
    match l.outerKeys with
    | own :: outer => { l with keyStart := own, outerKeys := outer }
    | [] => l
  some (({ l with keyAllowed := false }.skip 1).emit t)

def comma (l : Lexer) : Option Lexer := do
  let l ← l.dropKey
  some (({ l with keyAllowed := true }.skip 1).emit .comma)

def entry (l : Lexer) : Option Lexer := do
  if !l.inFlow && !l.keyAllowed then none
  let l := l.openBlock l.place.column l.tokens.size .blockListStart
  let l ← l.dropKey
  some (({ l with keyAllowed := true }.skip 1).emit .entry)

def keyMark (l : Lexer) : Option Lexer := do
  if !l.inFlow && !l.keyAllowed then none
  let l := l.openBlock l.place.column l.tokens.size .blockTableStart
  let l ← l.dropKey
  some (({ l with keyAllowed := !l.inFlow }.skip 1).emit .key)

def valueMark (l : Lexer) : Option Lexer :=
  match l.keyStart with
  | some k =>
    let l :=
      { l with tokens := putAt k.tokens .key l.tokens, keyStart := none, keyAllowed := false }
    some (((l.openBlock k.place.column k.tokens .blockTableStart).skip 1).emit .value)
  | none =>
    if !l.inFlow && !l.keyAllowed then none
    else
      let l := l.openBlock l.place.column l.tokens.size .blockTableStart
      some (({ l with keyAllowed := !l.inFlow }.skip 1).emit .value)

/-- Whether a character may stand in the name of an anchor. -/
def isNameChar (c : Char) : Bool := c.isAlphanum || c == '_' || c == '-'

/-- An anchor or an alias. -/
def name (l : Lexer) (token : String → Token) : Option Lexer := do
  let l ← l.saveKey
  let (own, c) := l.place.skip.takeWhile isNameChar
  let ends := startsBlank c.rest ||
    c.rest.head?.any fun d => ['?', ':', ',', ']', '\x7d', '%', '@', '\x60'].contains d
  if own.isEmpty || !ends then none
  some ({ l with keyAllowed := false, place := c }.emit (token (String.ofList own)))

def isTagChar (c : Char) : Bool :=
  c.isAlphanum || ['_', '-', ';', '/', '?', ':', '@', '&', '=', '+', '$', '.', '!', '~', '*', '\'',
    '(', ')', '%'].contains c

def tag (l : Lexer) : Option Lexer := do
  let l ← l.saveKey
  let verbatim := l.place.rest.tail.head? == some '<'
  let (own, c) :=
    if verbatim then
      (Cursor.skipMany 2 l.place).takeWhile fun d => isTagChar d || d == ',' || d == '[' || d == ']'
    else l.place.takeWhile isTagChar
  if verbatim && (own.isEmpty || c.rest.head? != some '>') then none
  let c := if verbatim then c.skip else c
  if !startsBlank c.rest && !(l.inFlow && c.rest.head? == some ',') then none
  some ({ l with keyAllowed := false, place := c }.emit (.tag (String.ofList own)))

def block (l : Lexer) (literal : Bool) : Option Lexer := do
  let l ← l.dropKey
  let (s, c) ← blockScalar literal l.indent l.place.skip
  some ({ l with keyAllowed := true, place := c }.emit (.scalar false s))

def quoted (l : Lexer) (single : Bool) : Option Lexer := do
  let l ← l.saveKey
  let (seen, c) ← quotedFrom single (l.place.rest.length + 1) [] l.place.skip
  let l := { l with keyAllowed := false, place := c }
  some (l.emit (.scalar false (String.ofList seen.reverse)))

def plain (l : Lexer) : Option Lexer := do
  let l ← l.saveKey
  let (seen, broken, c) ←
    plainFrom l.inFlow (l.indent + 1) (l.place.rest.length + 1) [] {} l.place
  some ({ l with keyAllowed := broken, place := c }.emit
    (.scalar true (String.ofList seen.reverse)))

/-- The characters that start no plain scalar. -/
def indicators : List Char :=
  ['-', '?', ':', ',', '[', ']', '\x7b', '\x7d', '#', '&', '*', '!', '|', '>', '\'', '"', '%', '@',
    '\x60']

def token (l : Lexer) (c : Char) (rest : List Char) : Option Lexer :=
  let apart := startsBlank rest
  if l.place.column == 0 && c == '%' then l.directive
  else if l.place.isMark "---" then l.documentMark .documentStart
  else if l.place.isMark "..." then l.documentMark .documentEnd
  else if c == '[' then l.openFlow .flowListStart
  else if c == '\x7b' then l.openFlow .flowTableStart
  else if c == ']' then l.closeFlow .flowListEnd
  else if c == '\x7d' then l.closeFlow .flowTableEnd
  else if c == ',' then l.comma
  else if c == '-' && apart then l.entry
  else if c == '?' && (l.inFlow || apart) then l.keyMark
  else if c == ':' && (l.inFlow || apart) then l.valueMark
  else if c == '*' then l.name .alias
  else if c == '&' then l.name .anchor
  else if c == '!' then l.tag
  else if c == '|' && !l.inFlow then l.block true
  else if c == '>' && !l.inFlow then l.block false
  else if c == '\'' then l.quoted true
  else if c == '"' then l.quoted false
  else if !(startsBlank (c :: rest) || indicators.contains c) ||
      (c == '-' && !rest.head?.any isBlank) || (!l.inFlow && (c == '?' || c == ':') && !apart) then
    l.plain
  else none

def finish (l : Lexer) : Option (Array Token) := do
  let l ← (l.closeBlocks (-1)).dropKey
  some (l.tokens.push .streamEnd)

def run : (fuel : Nat) → Lexer → Option (Array Token)
  | 0, _ => none
  | fuel + 1, l => do
    let l ← (skipSpace (l.place.rest.length + 1) l).dropStale
    let l := l.closeBlocks l.place.column
    match l.place.rest with
    | [] => l.finish
    | c :: rest => run fuel (← l.token c rest)

end Lexer

def tokensOf? (s : String) : Option (List Token) :=
  let cs :=
    match s.toList with
    | '\ufeff' :: rest => rest
    | cs => cs
  if cs.all isPrintable then
    (Lexer.run (cs.length + 1) { place := { rest := cs } }).map Array.toList
  else none

end AgentFlow.Yaml
