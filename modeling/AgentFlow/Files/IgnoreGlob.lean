/-!
# Patterns of ignore files

Patterns with wildcards over the bytes of a path seen from the ignore file: `?` for one byte, `*`
for any bytes but slashes, `**` as a whole step for any steps, classes in brackets, alternatives in
braces, and a backslash that takes the next character as it is.  A bracket that is never closed
stands for itself, and so do the brackets behind it.

* `IgnoreGlob.parse?` reads a pattern, `IgnoreGlob.accepts` says whether it stands for a path.
-/

namespace AgentFlow.Files

abbrev ByteRange := UInt8 × UInt8

inductive IgnorePart where
  | literal (c : Char)
  | one
  | many
  /-- Any steps in front of the rest. -/
  | leadingSteps
  /-- Something behind a slash. -/
  | trailingSteps
  /-- Any steps between two slashes, which may be the same. -/
  | innerSteps
  | class (negated : Bool) (ranges : List ByteRange)
  | alternatives (branches : List (List IgnorePart))

abbrev IgnoreGlob := List IgnorePart

namespace IgnoreGlob

/-! ## Reading -/

def bytesOf (c : Char) : List UInt8 := (String.singleton c).toUTF8.toList

/-- The bytes of the characters from `a` to `b`: those of their first and last bytes stand alone,
and the ones between them make a range. -/
def byteRanges (a b : Char) : List ByteRange :=
  let alone (bytes : List UInt8) : List ByteRange := bytes.map fun x => (x, x)
  if a = b then alone (bytesOf a)
  else
    alone (bytesOf a).dropLast ++ [((bytesOf a).getLastD 0, (bytesOf b).headD 0)] ++
      alone (bytesOf b).tail

/-- The ranges of a class in reverse, up to its closing bracket, and the rest behind that.  `first`
holds at its start, `open'` behind a dash that may continue the last range.  The answer is `none`
for a class that is never closed, and `some none` for a range that runs backwards. -/
def classRanges (first open' : Bool) (seen : List (Char × Char)) :
    List Char → Option (Option (List (Char × Char) × List Char))
  | [] => none
  | c :: rest =>
    if c == ']' && !first then
      some (some (if open' then ('-', '-') :: seen else seen, rest))
    else if open' then
      match seen with
      | (a, _) :: more =>
        if c < a then some none else classRanges false false ((a, c) :: more) rest
      | [] => classRanges false false [(c, c)] rest
    else if c == '-' && !first then classRanges false true seen rest
    else classRanges false false ((c, c) :: seen) rest

def class? (cs : List Char) : Option (Option (IgnorePart × List Char)) :=
  let (negated, inside) :=
    match cs with
    | '!' :: rest => (true, rest)
    | '^' :: rest => (true, rest)
    | _ => (false, cs)
  (classRanges true false [] inside).map fun read => read.map fun (ranges, rest) =>
    (.class negated (ranges.reverse.flatMap fun (a, b) => byteRanges a b), rest)

/-- The part of a pattern that has been read, all lists in reverse. -/
structure Reading where
  /-- The branch that is being read. -/
  branch : List IgnorePart := []
  /-- For every open brace, what stands in front of it and its finished branches. -/
  opened : List (List IgnorePart × List (List IgnorePart)) := []
  /-- Whether a bracket was never closed. -/
  plainBrackets : Bool := false

namespace Reading

def push (r : Reading) (part : IgnorePart) : Reading := { r with branch := part :: r.branch }

def openBrace (r : Reading) : Reading :=
  { r with branch := [], opened := (r.branch, []) :: r.opened }

/-- The reading behind a comma, which separates branches between braces. -/
def comma (r : Reading) : Reading :=
  match r.opened with
  | [] => r.push (.literal ',')
  | (before, done) :: more =>
    { r with branch := [], opened := (before, r.branch.reverse :: done) :: more }

def closeBrace? (r : Reading) : Option Reading :=
  match r.opened with
  | [] => none
  | (before, done) :: more =>
    some { r with
      branch := .alternatives (r.branch.reverse :: done).reverse :: before
      opened := more }

/-- The reading behind two stars.  They stand for steps if they are a step of their own. -/
def twoStars (r : Reading) (before : Option Char) (rest : List Char) : Reading × List Char :=
  let plain := ((r.push .many).push .many, rest)
  match r.branch with
  | [] =>
    match rest with
    | [] => (r.push .leadingSteps, [])
    | '/' :: rest => (r.push .leadingSteps, rest)
    | _ => plain
  | last :: more =>
    if before != some '/' then plain
    else
      let steps (part : IgnorePart) : Reading :=
        match last with
        | .leadingSteps => r
        | .trailingSteps => r
        | _ => { r with branch := part :: more }
      match rest with
      | [] => (steps .trailingSteps, [])
      | '/' :: rest => (steps .innerSteps, rest)
      | c :: _ =>
        if !r.opened.isEmpty && (c == ',' || c == '}') then (steps .trailingSteps, rest) else plain

end Reading

/-- Reads the rest of a pattern behind the character `before`.  `fuel` bounds its length. -/
def readFrom : (fuel : Nat) → Reading → (before : Option Char) → List Char → Option IgnoreGlob
  | 0, _, _, _ => none
  | _ + 1, r, _, [] => if r.opened.isEmpty then some r.branch.reverse else none
  | fuel + 1, r, before, c :: rest =>
    if c == '?' then readFrom fuel (r.push .one) c rest
    else if c == '*' then
      match rest with
      | '*' :: rest =>
        let (r, rest') := r.twoStars before rest
        readFrom fuel r (if rest'.length < rest.length then '/' else '*') rest'
      | _ => readFrom fuel (r.push .many) c rest
    else if c == '[' && !r.plainBrackets then
      match class? rest with
      | none => readFrom fuel { r.push (.literal '[') with plainBrackets := true } c rest
      | some none => none
      | some (some (part, rest)) => readFrom fuel (r.push part) ']' rest
    else if c == '{' then readFrom fuel r.openBrace c rest
    else if c == '}' then
      match r.closeBrace? with
      | some r => readFrom fuel r c rest
      | none => none
    else if c == ',' then readFrom fuel r.comma c rest
    else if c == '\\' then
      match rest with
      | d :: rest => readFrom fuel (r.push (.literal d)) d rest
      | [] => none
    else readFrom fuel (r.push (.literal c)) c rest

/-- The pattern that a text writes. -/
def parse? (s : String) : Option IgnoreGlob := readFrom (s.length + 1) {} none s.toList

/-! ## Matching -/

def slash : UInt8 := 0x2f

/-- The rests of a path behind as many bytes as are no slashes. -/
def restsInStep : List UInt8 → List (List UInt8)
  | [] => [[]]
  | b :: bs => (b :: bs) :: if b == slash then [] else restsInStep bs

def allRests : List UInt8 → List (List UInt8)
  | [] => [[]]
  | b :: bs => (b :: bs) :: allRests bs

def restsBehindSlashes : List UInt8 → List (List UInt8)
  | [] => []
  | b :: bs => if b == slash then bs :: restsBehindSlashes bs else restsBehindSlashes bs

def inByteRanges (ranges : List ByteRange) (b : UInt8) : Bool :=
  ranges.any fun (low, high) => low ≤ b && b ≤ high

def behind? (head bs : List UInt8) : Option (List UInt8) :=
  if head.isPrefixOf bs then some (bs.drop head.length) else none

mutual

/-- Whether some start of a path is what the part stands for, with `after` true of the rest. -/
def partAccepts (part : IgnorePart) (after : List UInt8 → Bool) (bs : List UInt8) : Bool :=
  match part with
  | .literal c =>
    match behind? (bytesOf c) bs with
    | some rest => after rest
    | none => false
  | .one =>
    match bs with
    | b :: rest => b != slash && after rest
    | [] => false
  | .many => (restsInStep bs).any after
  | .leadingSteps => after bs || (restsBehindSlashes bs).any after
  | .trailingSteps =>
    match bs with
    | b :: rest => b == slash && (allRests rest).any after
    | [] => false
  | .innerSteps =>
    match bs with
    | b :: rest => b == slash && (after rest || (restsBehindSlashes rest).any after)
    | [] => false
  | .class negated ranges =>
    match bs with
    | b :: rest => inByteRanges ranges b != negated && after rest
    | [] => false
  | .alternatives branches =>
    if branches.all List.isEmpty then after bs else someAccepts branches after bs

def allAccept (parts : List IgnorePart) (after : List UInt8 → Bool) : List UInt8 → Bool :=
  match parts with
  | [] => after
  | part :: more => partAccepts part (allAccept more after)

/-- Whether `after` accepts a rest behind one of the branches.  An empty branch counts for
nothing. -/
def someAccepts (branches : List (List IgnorePart)) (after : List UInt8 → Bool) (bs : List UInt8) :
    Bool :=
  match branches with
  | [] => false
  | [] :: more => someAccepts more after bs
  | (part :: parts) :: more =>
    partAccepts part (allAccept parts after) bs || someAccepts more after bs

end

def accepts (g : IgnoreGlob) (path : String) : Bool :=
  match g with
  | [.leadingSteps] => true
  | _ => allAccept g List.isEmpty path.toUTF8.toList

end IgnoreGlob

end AgentFlow.Files
