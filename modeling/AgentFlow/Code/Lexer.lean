import AgentFlow.Code.Token
import AgentFlow.Text.Case

/-!
# Cutting Python text into tokens

`tokens` cuts a whole text.  It never fails: a character that starts no token, or a quoted text that
does not end, becomes a broken token, which no statement accepts.

A quoted text with the letter `f` before it holds replacement fields, whose tokens are kept in the
token of the text; a field ends at its closing brace, and a format after a colon may hold fields
again.

The null character stands for the end of a text: comments, quoted texts and formats break off at it,
and no token starts with it.
-/

namespace AgentFlow.Code

structure Cursor where
  rest : List Char
  offset : Nat
  line : Nat

/-- The place `n` characters further on. -/
def Cursor.move (c : Cursor) : Nat → Cursor
  | 0 => c
  | n + 1 =>
    match c.rest with
    | [] => c
    | x :: rest => Cursor.move ⟨rest, c.offset + 1, if x == '\n' then c.line + 1 else c.line⟩ n

/-! ## Between tokens -/

/-- What a reader of the gap is in: blanks that count, blanks after a character that takes no part
in the layout, or a comment. -/
inductive GapState where
  | blank
  | frozen
  | comment

/-- Characters that are skipped but end the reading of the layout. -/
def isInvisible (c : Char) : Bool :=
  c == '\x0b' || c == '\ufeff' || c == '\u2060' || c == '\u200b'

/-- The gap before what breaks off a comment on the line: as before the comment, if that stands on a
line of its own. -/
def Gap.reopen (g : Gap) (line : Nat) : Gap :=
  match g.comments with
  | comment :: earlier =>
    if comment.line == line then ⟨earlier, true, comment.indent⟩ else g
  | [] => g

/-- The gap at a place and the place of the next token.  Comments are collected in reverse. -/
def gapAt (g : Gap) : GapState → (offset line : Nat) → List Char → Gap × Cursor
  | .blank, offset, line, [] | .comment, offset, line, [] =>
    ({ g with newline := true, indent := 0 }, ⟨[], offset, line⟩)
  | .frozen, offset, line, [] => (g, ⟨[], offset, line⟩)
  | .comment, offset, line, c :: rest =>
    if c == '\n' then
      gapAt { g with newline := true, indent := 0 } .blank (offset + 1) (line + 1) rest
    else if c == '\x00' then (g.reopen line, ⟨c :: rest, offset, line⟩)
    else gapAt g .comment (offset + 1) line rest
  | state, offset, line, c :: rest =>
    let frozen := match state with
      | .frozen => true
      | _ => false
    let stay (g' : Gap) := if frozen then g else g'
    if c == '\n' then
      gapAt (stay { g with newline := true, indent := 0 }) state (offset + 1) (line + 1) rest
    else if c == ' ' then
      gapAt (stay { g with indent := g.indent + 1 }) state (offset + 1) line rest
    else if c == '\t' then
      gapAt (stay { g with indent := g.indent + 8 }) state (offset + 1) line rest
    else if c == '\r' || c == '\x0c' then
      gapAt (stay { g with indent := 0 }) state (offset + 1) line rest
    else if c == '#' then
      let comments := if g.newline then ⟨g.indent, line⟩ :: g.comments else g.comments
      gapAt { g with comments := comments, newline := false, indent := 0 } .comment (offset + 1)
        line rest
    else if c == '\\' then
      match rest with
      | '\n' :: rest => gapAt g state (offset + 2) (line + 1) rest
      | '\r' :: '\n' :: rest => gapAt g state (offset + 3) (line + 1) rest
      | [] => gapAt g state (offset + 1) line []
      | rest => (g, ⟨c :: rest, offset, line⟩)
    else if isInvisible c then gapAt g .frozen (offset + 1) line rest
    else (g, ⟨c :: rest, offset, line⟩)

/-- The gap at a place and the place of the next token. -/
def Cursor.gap (c : Cursor) : Gap × Cursor :=
  let (g, d) := gapAt {} .blank c.offset c.line c.rest
  ({ g with comments := g.comments.reverse }, d)

/-! ## Numbers -/

/-- How many characters at the start are digits, each followed by at most one underscore. -/
def digitRun (afterDigit : Bool) : List Char → Nat
  | [] => 0
  | c :: rest =>
    if c.isDigit then digitRun true rest + 1
    else if c == '_' && afterDigit then digitRun false rest + 1
    else 0

/-- How many characters at the start are digits that `p` accepts, each after at most one
underscore. -/
def radixRun (p : Char → Bool) : List Char → Nat
  | [] => 0
  | '_' :: c :: rest => if p c then radixRun p rest + 2 else 0
  | c :: rest => if p c then radixRun p rest + 1 else 0

/-- The length of an exponent, zero if there is none. -/
def exponentLength : List Char → Nat
  | e :: rest =>
    if e == 'e' || e == 'E' then
      let sign := match rest with
        | '+' :: _ => 1
        | '-' :: _ => 1
        | _ => 0
      let n := match rest.drop sign with
        | c :: _ => if c.isDigit then digitRun false (rest.drop sign) else 0
        | [] => 0
      if n == 0 then 0 else 1 + sign + n
    else 0
  | [] => 0

/-- One if the text starts with a letter of `letters`, which hold both cases. -/
def suffixLength (letters : List Char) : List Char → Nat
  | c :: _ => if letters.contains c then 1 else 0
  | [] => 0

/-- The length of a number at the start of a text that starts with a digit, or a point and one. -/
def numberLength (cs : List Char) : Nat :=
  let radix (p : Char → Bool) : Nat :=
    let n := radixRun p (cs.drop 2)
    if n == 0 then 1 else 2 + n + suffixLength ['L', 'l'] (cs.drop (2 + n))
  match cs with
  | '0' :: 'x' :: _ | '0' :: 'X' :: _ =>
    radix fun c => c.isDigit || ('a' ≤ c && c ≤ 'f') || ('A' ≤ c && c ≤ 'F')
  | '0' :: 'o' :: _ | '0' :: 'O' :: _ => radix fun c => '0' ≤ c && c ≤ '7'
  | '0' :: 'b' :: _ | '0' :: 'B' :: _ => radix fun c => c == '0' || c == '1'
  | _ =>
    let whole := digitRun false cs
    let afterWhole := cs.drop whole
    let n :=
      match afterWhole with
      | '.' :: afterPoint => whole + 1 + digitRun false afterPoint
      | _ => whole
    let power := exponentLength (cs.drop n)
    let n := n + power
    n + suffixLength (if n == whole then ['L', 'l', 'J', 'j'] else ['J', 'j']) (cs.drop n)

/-! ## Marks -/

/-- The marks, the longer ones first. -/
def marks : List String :=
  ["**=", "//=", ">>=", "<<=", "...", "->", ":=", "==", "!=", "<=", ">=", "<>", "<<", ">>", "**",
    "//", "+=", "-=", "*=", "/=", "%=", "@=", "&=", "|=", "^=", "+", "-", "*", "/", "%", "@", "&",
    "|", "^", "~", "<", ">", "=", "(", ")", "[", "]", "\x7b", "\x7d", ",", ":", ".", ";"]

def mark? (cs : List Char) : Option String := marks.find? fun m => m.toList.isPrefixOf cs

/-! ## Quoted texts -/

/-- How a quoted text is read. -/
structure Quoting where
  format : Bool
  raw : Bool
  bytes : Bool
  triple : Bool
  quote : Char

def isQuote (c : Char) : Bool := c == '"' || c == '\'' || c == '`'

/-- The way of reading that the letters before a quote ask for, if all of them are known. -/
def quoting? (letters : List Char) (quote : Char) (triple : Bool) : Option Quoting :=
  let has (c : Char) := letters.any fun d => d.toLower == c
  if letters.all fun c => ['f', 't', 'r', 'b', 'u'].contains c.toLower then
    some ⟨has 'f' || has 't', has 'r', has 'b', triple, quote⟩
  else none

/-- How many characters an escape takes after its backslash, zero for one that is no escape. -/
def escapeLength : List Char → Nat
  | '\r' :: '\n' :: _ => 2
  | 'N' :: '\x7b' :: rest =>
    let name := rest.takeWhile (· != '\x7d')
    if name.isEmpty || name.length == rest.length || name.contains '\x00' then 0
    else name.length + 3
  | c :: rest =>
    let hex (n : Nat) : Nat :=
      let ds := rest.take n
      if ds.length == n && ds.all fun d =>
        d.isDigit || ('a' ≤ d && d ≤ 'f') || ('A' ≤ d && d ≤ 'F') then n + 1 else 0
    if ['\'', '"', '\\', '\n', 'a', 'b', 'f', 'n', 'r', 't', 'v'].contains c then 1
    else if c == 'u' then hex 4
    else if c == 'U' then hex 8
    else if c == 'x' then hex 2
    else if c.isDigit then 1 + ((rest.take 2).takeWhile Char.isDigit).length
    else 0
  | [] => 0

/-- How many characters a backslash in a raw text takes with it. -/
def rawEscapeLength (quote : Char) (cs : List Char) : Nat :=
  let (n, cs) :=
    match cs with
    | c :: rest => if c == quote || c == '\\' then (1, rest) else (0, cs)
    | [] => (0, cs)
  match cs with
  | '\r' :: '\n' :: _ => n + 2
  | '\r' :: _ => n + 1
  | '\n' :: _ => n + 1
  | _ => n

/-- What the tokens of a replacement field have to know about those read so far: the number of open
brackets, of parameter lists of anonymous functions that wait for their colon, and whether a name
was the last token. -/
structure FieldState where
  depth : Nat := 0
  pending : Nat := 0
  afterName : Bool := false

mutual

/-- The token after the gap `g`.  The count bounds the nesting and the length of what is read. -/
def tokenAt : (fuel : Nat) → Gap → Cursor → Token × Cursor
  | 0, g, c => (.mk .broken "" c.rest c.offset c.offset c.line c.line g [], ⟨[], c.offset, c.line⟩)
  | fuel + 1, g, c =>
    let build (k : TokenKind) (w : String) (n : Nat) : Token × Cursor :=
      let d := c.move n
      (.mk k w c.rest c.offset d.offset c.line d.line g [], d)
    match c.rest with
    | [] => build .finish "" 0
    | x :: rest =>
      let letters := c.rest.takeWhile Text.isIdentifierChar
      let letters := if Text.isIdentifierStart x then letters else []
      let quoted : Option (Quoting × Nat) :=
        match c.rest.drop letters.length with
        | q :: more =>
          if isQuote q then
            let triple := match more with
              | q₂ :: q₃ :: _ => q₂ == q && q₃ == q
              | _ => false
            (quoting? letters q triple).map fun style =>
              (style, letters.length + if triple then 3 else 1)
          else none
        | [] => none
      match quoted with
      | some (style, n) =>
        match textBody fuel style false [] (c.move n) with
        | some (fields, d) =>
          (.mk .text "" c.rest c.offset d.offset c.line d.line g fields.reverse, d)
        | none =>
          (.mk .broken "" c.rest c.offset c.offset c.line c.line g [], ⟨[], c.offset, c.line⟩)
      | none =>
        if Text.isIdentifierStart x then build .name (String.ofList letters) letters.length
        else if x.isDigit || (x == '.' && (rest.head?.map Char.isDigit).getD false) then
          build .number "" (numberLength c.rest)
        else
          match mark? c.rest with
          | some m => build .mark m m.length
          | none =>
            match c.rest with
            | '!' :: y :: _ => if y.isLower then build .conversion "" 2 else build .broken "" 1
            | _ => build .broken "" 1

/-- The replacement fields of a quoted text in reverse and the place behind its closing quote.
`content` tells whether a plain character was read since the last escape or field: only then does
the end of a line cut off a text of one line. -/
def textBody : (fuel : Nat) → Quoting → (content : Bool) → List (List Token) → Cursor →
    Option (List (List Token) × Cursor)
  | 0, _, _, _, _ => none
  | fuel + 1, style, content, fields, c =>
    match c.rest with
    | [] => none
    | x :: rest =>
      if x == '\x00' then none
      else if style.format && (x == '\x7b' || x == '\x7d') then
        if rest.head? == some x then textBody fuel style false fields (c.move 2)
        else if x == '\x7b' then
          match fieldTokens fuel {} [] (c.move 1) with
          | some (fs, d) => textBody fuel style false (fs.reverse ++ fields) d
          | none => none
        else none
      else if x == '\\' then
        if style.raw then
          textBody fuel style content fields (c.move (1 + rawEscapeLength style.quote rest))
        else
          match style.bytes, rest with
          | true, 'N' :: _ | true, 'u' :: _ | true, 'U' :: _ =>
            textBody fuel style true fields (c.move 3)
          | _, _ => textBody fuel style false fields (c.move (1 + escapeLength rest))
      else if x == style.quote then
        if !style.triple then some (fields, c.move 1)
        else
          match rest with
          | y :: z :: _ =>
            if y == x && z == x then some (fields, c.move 3)
            else textBody fuel style true fields (c.move 1)
          | _ => textBody fuel style true fields (c.move 1)
      else if x == '\n' && content && !style.triple then none
      else textBody fuel style true fields (c.move 1)

/-- The tokens of a replacement field, and those of the fields in its format, up to behind its
closing brace. -/
def fieldTokens : (fuel : Nat) → FieldState → List Token → Cursor →
    Option (List (List Token) × Cursor)
  | 0, _, _, _ => none
  | fuel + 1, s, seen, c =>
    let (g, c) := c.gap
    let (t, d) := tokenAt fuel g c
    match t.kind with
    | .finish | .broken => none
    | .mark =>
      let opens := t.word == "(" || t.word == "[" || t.word == "\x7b"
      let closes := t.word == ")" || t.word == "]" || t.word == "\x7d"
      if s.depth == 0 && t.word == "\x7d" then some ([seen.reverse], d)
      else if s.depth == 0 && s.pending == 0 && t.word == ":" then
        formatFields fuel [seen.reverse] d
      else if s.depth == 0 && s.pending == 0 && t.word == ":=" && !s.afterName then
        formatFields fuel [seen.reverse] (c.move 1)
      else
        let s : FieldState :=
          { depth := if opens then s.depth + 1 else if closes then s.depth - 1 else s.depth
            pending := if t.word == ":" && s.depth == 0 then s.pending - 1 else s.pending }
        fieldTokens fuel s (t :: seen) d
    | .name =>
      let s := { s with
        pending := if t.word == "lambda" && s.depth == 0 then s.pending + 1 else s.pending
        afterName := !reservedWords.contains t.word }
      fieldTokens fuel s (t :: seen) d
    | _ => fieldTokens fuel { s with afterName := false } (t :: seen) d

/-- The fields of a format, after `fields`, up to behind the brace that closes it. -/
def formatFields : (fuel : Nat) → List (List Token) → Cursor → Option (List (List Token) × Cursor)
  | 0, _, _ => none
  | fuel + 1, fields, c =>
    match c.rest with
    | [] | '\x00' :: _ => none
    | '\x7d' :: _ => some (fields, c.move 1)
    | '\x7b' :: _ =>
      match fieldTokens fuel {} [] (c.move 1) with
      | some (fs, d) => formatFields fuel (fields ++ fs) d
      | none => none
    | _ :: _ => formatFields fuel fields (c.move 1)

end

/-- The tokens at a place, after `seen` in reverse; the last one is the end of the text. -/
def tokensFrom (size : Nat) : (fuel : Nat) → List Token → Cursor → List Token
  | 0, seen, _ => seen.reverse
  | fuel + 1, seen, c =>
    let (g, c) := c.gap
    let (t, d) := tokenAt size g c
    if t.kind == .finish then (t :: seen).reverse
    else tokensFrom size fuel (t :: seen) d

def tokens (s : String) : List Token :=
  tokensFrom (2 * s.length + 4) (s.length + 2) [] ⟨s.toList, 0, 1⟩

end AgentFlow.Code
