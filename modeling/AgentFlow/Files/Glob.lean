/-!
# Path patterns

Patterns with wildcards that stand for whole paths: `?` for one character, `*` for any characters,
`**` as a whole step for any steps, and `[…]` or `[!…]` for one character of a class.  Here a
wildcard may stand for a slash.

* `Glob.parse?` reads a pattern; a pattern that cannot be read is refused at a position.
* `Glob.accepts` says whether a pattern stands for a path.
-/

namespace AgentFlow.Files

inductive GlobFaultKind where
  | manyStars
  | partialStep
  | openClass
  deriving DecidableEq

structure GlobFault where
  position : Nat
  kind : GlobFaultKind
  deriving DecidableEq

def GlobFaultKind.reason : GlobFaultKind → String
  | manyStars => "wildcards are either regular `*` or recursive `**`"
  | partialStep => "recursive wildcards must form a single path component"
  | openClass => "invalid range pattern"

def GlobFault.message (f : GlobFault) : String :=
  "Pattern syntax error near position " ++ toString f.position ++ ": " ++ f.kind.reason

/-- The characters from the first to the second one. -/
abbrev CharRange := Char × Char

inductive GlobPart where
  | literal (c : Char)
  | one
  | many
  /-- Any steps. -/
  | steps
  /-- One character in the ranges, or outside of them if `negated` holds. -/
  | class (negated : Bool) (ranges : List CharRange)
  deriving DecidableEq

abbrev Glob := List GlobPart

namespace Glob

/-! ## Reading -/

def ranges : List Char → List CharRange
  | a :: '-' :: b :: rest => (a, b) :: ranges rest
  | a :: rest => (a, a) :: ranges rest
  | [] => []

/-- The characters before the first closing bracket and those behind it. -/
def upToBracket : List Char → Option (List Char × List Char)
  | [] => none
  | ']' :: rest => some ([], rest)
  | c :: rest => (upToBracket rest).map fun (before, after) => (c :: before, after)

/-- A class behind its opening bracket.  A bracket right at its start belongs to it. -/
def class? : List Char → Option (GlobPart × List Char)
  | '!' :: c :: rest => (upToBracket rest).map fun (inside, after) =>
    (.class true (ranges (c :: inside)), after)
  | '!' :: [] => none
  | c :: rest => (upToBracket rest).map fun (inside, after) =>
    (.class false (ranges (c :: inside)), after)
  | [] => none

def stars (cs : List Char) : Nat × List Char :=
  ((cs.takeWhile (· == '*')).length, cs.dropWhile (· == '*'))

/-- The parts of a pattern from `position` on.  `before` is the character in front of it, a slash at
the start.  `fuel` bounds the length of the pattern. -/
def partsFrom : (fuel : Nat) → (position : Nat) → (before : Char) → List Char →
    Except GlobFault Glob
  | 0, _, _, _ => .ok []
  | _ + 1, _, _, [] => .ok []
  | fuel + 1, position, before, c :: rest =>
    if c == '?' then (.one :: ·) <$> partsFrom fuel (position + 1) c rest
    else if c == '*' then
      match stars rest with
      | (0, _) => (.many :: ·) <$> partsFrom fuel (position + 1) c rest
      | (1, after) =>
        if before != '/' then .error ⟨position - 1, .partialStep⟩
        else
          match after with
          | [] => .ok [.steps]
          | '/' :: after => (.steps :: ·) <$> partsFrom fuel (position + 3) '/' after
          | _ => .error ⟨position + 2, .partialStep⟩
      | _ => .error ⟨position + 2, .manyStars⟩
    else if c == '[' then
      match class? rest with
      | some (part, after) =>
        (part :: ·) <$> partsFrom fuel (position + (rest.length - after.length) + 1) ']' after
      | none => .error ⟨position, .openClass⟩
    else (.literal c :: ·) <$> partsFrom fuel (position + 1) c rest

/-- The pattern that a text writes. -/
def parse? (s : String) : Except GlobFault Glob := partsFrom (s.length + 1) 0 '/' s.toList

/-! ## Matching -/

def inRanges (ranges : List CharRange) (c : Char) : Bool := ranges.any fun (a, b) => a ≤ c && c ≤ b

def rests : List Char → List (List Char)
  | [] => [[]]
  | c :: cs => (c :: cs) :: rests cs

def behindSlashes : List Char → List (List Char)
  | [] => []
  | c :: cs => if c == '/' then cs :: behindSlashes cs else behindSlashes cs

/-- Whether a pattern stands for a whole text. -/
def matchesAll : Glob → List Char → Bool
  | [], cs => cs.isEmpty
  | .literal a :: ps, c :: cs => a == c && matchesAll ps cs
  | .one :: ps, _ :: cs => matchesAll ps cs
  | .class negated ranges :: ps, c :: cs => inRanges ranges c != negated && matchesAll ps cs
  | .many :: ps, cs => (rests cs).any (matchesAll ps)
  | .steps :: ps, cs =>
    matchesAll ps cs || (behindSlashes cs).any (matchesAll ps) || matchesAll ps []
  | _ :: _, [] => false

def accepts (g : Glob) (path : String) : Bool := g.matchesAll path.toList

end Glob

end AgentFlow.Files
