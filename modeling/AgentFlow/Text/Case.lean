import AgentFlow.Text.CaseTable
import AgentFlow.Text.PropertyTable

/-!
# Letter case

Lower-case and upper-case forms of texts by the full Unicode mappings.  A capital sigma at the end
of a word has a form of its own, the only place where the context of a letter matters.

* `lowerChar_ascii`, `upperChar_ascii`: on ASCII characters the maps are the shifts of the alphabet.
-/

namespace AgentFlow.Text

/-- Whether `n` lies in one of the sorted, disjoint ranges with index in `[low, high)`. -/
def inRangesBetween (ranges : Array (Nat × Nat)) (n low high : Nat) : Bool :=
  if low < high then
    let mid := (low + high) / 2
    match ranges[mid]? with
    | none => false
    | some (first, last) =>
      if n < first then inRangesBetween ranges n low mid
      else if last < n then inRangesBetween ranges n (mid + 1) high
      else true
  else false
termination_by high - low
decreasing_by
  all_goals omega

/-- Whether a character lies in one of the sorted, disjoint ranges. -/
def inRanges (ranges : Array (Nat × Nat)) (c : Char) : Bool :=
  inRangesBetween ranges c.toNat 0 ranges.size

def isCased (c : Char) : Bool := inRanges casedRanges c

/-- Marks that case rules look through. -/
def isCaseIgnorable (c : Char) : Bool := inRanges caseIgnorableRanges c

/-- Letters, marks, decimal digits, connectors and joiners. -/
def isWordChar (c : Char) : Bool :=
  if c.toNat < 0x80 then c.isAlphanum || c == '_' else inRanges wordRanges c

def isIdentifierStart (c : Char) : Bool :=
  if c.toNat < 0x80 then c.isAlpha || c == '_' else inRanges identifierStartRanges c

def isIdentifierChar (c : Char) : Bool :=
  if c.toNat < 0x80 then c.isAlphanum || c == '_' else inRanges identifierRanges c

def CaseRun.covers (run : CaseRun) (n : Nat) : Bool :=
  run.first ≤ n && n ≤ run.last && (n - run.first) % run.stride == 0

def shiftBy (runs : Array CaseRun) (c : Char) : Char :=
  match runs.find? (·.covers c.toNat) with
  | some run => Char.ofNat (c.toNat + run.shift).toNat
  | none => c

/-- The lower-case form of a character, apart from a sigma that ends a word. -/
def lowerChar (c : Char) : List Char :=
  if c.toNat < 0x80 then [c.toLower]
  else if c.toNat == 0x130 then ['i', '\u0307']
  else [shiftBy lowerRuns c]

def upperChar (c : Char) : List Char :=
  if c.toNat < 0x80 then [c.toUpper]
  else
    match upperSequences.find? (·.1 == c.toNat) with
    | some (_, codes) => codes.map Char.ofNat
    | none => [shiftBy upperRuns c]

/-- Whether the next character that case rules look at is a letter with case. -/
def casedNext (cs : List Char) : Bool :=
  match cs.dropWhile isCaseIgnorable with
  | c :: _ => isCased c
  | [] => false

/-- Lower-case form of a text, given the characters before it in reverse order. -/
def lowerAfter (before : List Char) : List Char → List Char
  | [] => []
  | c :: rest =>
    let here :=
      if c == 'Σ' then [if casedNext before && !casedNext rest then 'ς' else 'σ'] else lowerChar c
    here ++ lowerAfter (c :: before) rest

def lower (s : String) : String := String.ofList (lowerAfter [] s.toList)

def upper (s : String) : String := String.ofList (s.toList.flatMap upperChar)

theorem lowerChar_ascii {c : Char} (h : c.toNat < 0x80) : lowerChar c = [c.toLower] := by
  simp [lowerChar, h]

theorem upperChar_ascii {c : Char} (h : c.toNat < 0x80) : upperChar c = [c.toUpper] := by
  simp [upperChar, h]

end AgentFlow.Text
