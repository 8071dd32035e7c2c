import AgentFlow.Json.Reader
import AgentFlow.Yaml.Cursor

/-!
# Scalars

The texts in a YAML document: plain ones, those between quotes, and those on lines of their own.
Lines of a text are folded: a single break becomes a blank, and of several breaks the first one is
dropped.
-/

namespace AgentFlow.Yaml

/-! ## Gaps between words -/

/-- The blanks and breaks between two words.  After a break, blanks count for nothing. -/
structure Gap where
  /-- The blanks before any break, in reverse. -/
  blanks : List Char := []
  /-- Whether a break or an escaped break came. -/
  broken : Bool := false
  first : List Char := []
  later : List Char := []

def Gap.text (g : Gap) : List Char :=
  if g.broken then
    if g.first == ['\n'] then if g.later.isEmpty then [' '] else g.later
    else g.first ++ g.later
  else g.blanks.reverse

/-- Reads a gap on.  A tab must not stand in front of the column `indent` of a line. -/
def Gap.read (indent : Int) : (fuel : Nat) → Gap → Cursor → Option (Gap × Cursor)
  | 0, _, _ => none
  | fuel + 1, g, c =>
    match c.lineBreak? with
    | some (d, next) =>
      if g.broken then Gap.read indent fuel { g with later := g.later ++ [d] } next
      else Gap.read indent fuel { broken := true, first := [d] } next
    | none =>
      match c.rest with
      | d :: _ =>
        if !isBlank d then some (g, c)
        else if g.broken then
          if d == '\t' && (c.column : Int) < indent then none else Gap.read indent fuel g c.skip
        else Gap.read indent fuel { g with blanks := d :: g.blanks } c.skip
      | [] => some (g, c)

/-! ## Plain scalars -/

/-- Whether a character ends a plain scalar between brackets. -/
def isFlowMark (c : Char) : Bool := c == ',' || c == '[' || c == ']' || c == '\x7b' || c == '\x7d'

/-- A word of a plain scalar.  Between brackets a colon must not stand in front of a bracket. -/
def plainWord (flow : Bool) : List Char → Option (List Char)
  | [] => some []
  | c :: rest =>
    if startsBlank (c :: rest) then some []
    else if flow && c == ':' && (rest.head?.any fun d => isFlowMark d || d == '?') then none
    else if (c == ':' && startsBlank rest) || (flow && isFlowMark c) then some []
    else (plainWord flow rest).map (c :: ·)

/-- Reads a plain scalar on behind `seen` and a gap.  The answer holds the text in reverse and
whether a line was broken behind it. -/
def plainFrom (flow : Bool) (indent : Int) :
    (fuel : Nat) → (seen : List Char) → Gap → Cursor → Option (List Char × Bool × Cursor)
  | 0, _, _, _ => none
  | fuel + 1, seen, g, c =>
    if c.isDocumentMark || c.rest.head? == some '#' then some (seen, g.broken, c)
    else
      match plainWord flow c.rest with
      | none => none
      | some [] => some (seen, g.broken, c)
      | some word =>
        let seen := word.reverse ++ (g.text.reverse ++ seen)
        let c := Cursor.skipMany word.length c
        if !startsBlank c.rest || c.rest.isEmpty then some (seen, false, c)
        else
          match Gap.read indent (fuel + c.rest.length) {} c with
          | none => none
          | some (g, c) =>
            if !flow && (c.column : Int) < indent then some (seen, g.broken, c)
            else plainFrom flow indent fuel seen g c

/-! ## Scalars between quotes -/

/-- The character that a letter stands for behind a backslash. -/
def escapeLetter? (c : Char) : Option Char :=
  match c with
  | '0' => some '\x00'
  | 'a' => some '\x07'
  | 'b' => some '\x08'
  | 't' => some '\t'
  | '\t' => some '\t'
  | 'n' => some '\n'
  | 'v' => some '\x0b'
  | 'f' => some '\x0c'
  | 'r' => some '\r'
  | 'e' => some '\x1b'
  | ' ' => some ' '
  | '"' => some '"'
  | '/' => some '/'
  | '\\' => some '\\'
  | 'N' => some '\x85'
  | '_' => some '\xa0'
  | 'L' => some '\u2028'
  | 'P' => some '\u2029'
  | _ => none

/-- The number of hexadecimal digits behind a letter. -/
def codeLength? (c : Char) : Option Nat :=
  match c with
  | 'x' => some 2
  | 'u' => some 4
  | 'U' => some 8
  | _ => none

/-- The character that an escape behind a backslash stands for, and the number of its characters. -/
def escape? (cs : List Char) : Option (Char × Nat) := do
  match cs with
  | [] => none
  | c :: rest =>
    match codeLength? c with
    | none => (escapeLetter? c).map (·, 1)
    | some n =>
      let ds ← (rest.take n).mapM Json.hexValue?
      let code := ds.foldl (fun m d => m * 16 + d) 0
      if ds.length = n ∧ (code < 0xD800 ∨ (0xDFFF < code ∧ code < 0x110000)) then
        some (Char.ofNat code, n + 1)
      else none

/-- Reads a word between quotes; `seen` is in reverse.  The answer says whether the word ended at an
escaped break. -/
def quotedWord (single : Bool) : (fuel : Nat) → (seen : List Char) → Cursor →
    Option (List Char × Bool × Cursor)
  | 0, _, _ => none
  | fuel + 1, seen, c =>
    match c.rest with
    | [] => some (seen, false, c)
    | d :: rest =>
      if startsBlank (d :: rest) then some (seen, false, c)
      else if single && d == '\'' then
        if rest.head? == some '\'' then quotedWord single fuel ('\'' :: seen) (Cursor.skipMany 2 c)
        else some (seen, false, c)
      else if !single && d == '"' then some (seen, false, c)
      else if !single && d == '\\' then
        match c.skip.lineBreak? with
        | some (_, next) => some (seen, true, next)
        | none =>
          match escape? rest with
          | some (e, n) => quotedWord single fuel (e :: seen) (Cursor.skipMany (n + 1) c)
          | none => none
      else quotedWord single fuel (d :: seen) c.skip

/-- Reads a text between quotes on behind `seen`, up to its closing quote. -/
def quotedFrom (single : Bool) : (fuel : Nat) → (seen : List Char) → Cursor →
    Option (List Char × Cursor)
  | 0, _, _ => none
  | fuel + 1, seen, c =>
    if c.isDocumentMark || c.rest.isEmpty then none
    else
      match quotedWord single (c.rest.length + 1) seen c with
      | none => none
      | some (seen, broken, c) =>
        if c.rest.head? == some (if single then '\'' else '"') then some (seen, c.skip)
        else
          match Gap.read (-1) (c.rest.length + 1) { broken := broken } c with
          | none => none
          | some (g, c) => quotedFrom single fuel (g.text.reverse ++ seen) c

/-! ## Scalars on lines of their own -/

/-- What happens to the breaks at the end. -/
inductive Chomping where
  | strip
  | clip
  | keep
  deriving DecidableEq

/-- The signs behind the mark of a scalar: how it is chomped, and the indentation it states. -/
def blockSigns (c : Cursor) : Option (Chomping × Option Nat × Cursor) :=
  let chomp (c : Cursor) : Chomping × Cursor :=
    match c.rest with
    | '+' :: _ => (.keep, c.skip)
    | '-' :: _ => (.strip, c.skip)
    | _ => (.clip, c)
  let width (c : Cursor) : Option (Option Nat × Cursor) :=
    match c.rest with
    | d :: _ =>
      if d == '0' then none
      else if d.isDigit then some (some (d.toNat - '0'.toNat), c.skip)
      else some (none, c)
    | [] => some (none, c)
  match chomp c with
  | (.clip, _) =>
    (width c).map fun (n, c) =>
      if n.isSome then
        let (how, c) := chomp c
        (how, n, c)
      else (.clip, n, c)
  | (how, c) => (width c).map fun (n, c) => (how, n, c)

/-- Reads breaks and the blanks in front of lines.  `indent` is the column of the lines if it is
known; the answer holds the breaks, the widest column, and the place. -/
def blockBreaks (indent : Option Nat) :
    (fuel : Nat) → (breaks : List Char) → (widest : Nat) → Cursor →
      Option (List Char × Nat × Cursor)
  | 0, _, _, _ => none
  | fuel + 1, breaks, widest, c =>
    let spaces := (c.rest.takeWhile (· == ' ')).length
    let count :=
      match indent with
      | some n => min spaces (n - c.column)
      | none => spaces
    let c := Cursor.skipMany count c
    let widest := max widest c.column
    if c.rest.head? == some '\t' && (indent.all fun n => c.column < n) then none
    else
      match c.lineBreak? with
      | some (d, next) => blockBreaks indent fuel (breaks ++ [d]) widest next
      | none => some (breaks, widest, c)

/-- The lines of a scalar, with what is known between them. -/
structure BlockLines where
  /-- The text so far, in reverse. -/
  seen : List Char := []
  /-- The break behind the last line. -/
  first : List Char := []
  /-- The breaks behind that one. -/
  later : List Char := []
  /-- Whether the last line starts with a blank. -/
  blank : Bool := false

/-- The breaks in front of a line: a folded one becomes a blank or nothing. -/
def BlockLines.between (b : BlockLines) (literal blank : Bool) : List Char :=
  if !literal && b.first == ['\n'] && !b.blank && !blank then
    (if b.later.isEmpty then [' '] else []) ++ b.later
  else b.first ++ b.later

/-- Reads the lines of a scalar that start at the column `indent`. -/
def blockLines (literal : Bool) (indent : Nat) : (fuel : Nat) → BlockLines → Cursor →
    Option (BlockLines × Cursor)
  | 0, _, _ => none
  | fuel + 1, b, c =>
    if c.column != indent || c.rest.isEmpty then some (b, c)
    else
      let blank := c.rest.head?.any isBlank
      let (line, c) := c.takeWhile fun d => !isBreak d
      let seen := line.reverse ++ ((b.between literal blank).reverse ++ b.seen)
      let (first, c) :=
        match c.lineBreak? with
        | some (d, next) => ([d], next)
        | none => ([], c)
      match blockBreaks (some indent) (c.rest.length + 1) [] 0 c with
      | none => none
      | some (later, _, c) => blockLines literal indent fuel ⟨seen, first, later, blank⟩ c

/-- A scalar behind its mark, inside of lines at the column `parent`, or `-1` if there are none. -/
def blockScalar (literal : Bool) (parent : Int) (c : Cursor) : Option (String × Cursor) := do
  let fuel := c.rest.length + 2
  let (how, width, c) ← blockSigns c
  let c := c.skipWhile isBlank
  let c := if c.rest.head? == some '#' then c.skipWhile fun d => !isBreak d else c
  if !c.rest.isEmpty && c.lineBreak?.isNone then none
  let c := ((c.lineBreak?).map (·.2)).getD c
  let stated := width.map fun n => (max parent 0).toNat + n
  let (later, widest, c) ← blockBreaks stated fuel [] 0 c
  let indent := stated.getD (max (max widest (parent + 1).toNat) 1)
  let (b, c) ← blockLines literal indent fuel { later := later } c
  let tail :=
    match how with
    | .strip => []
    | .clip => b.first
    | .keep => b.first ++ b.later
  some (String.ofList (b.seen.reverse ++ tail), c)

end AgentFlow.Yaml
