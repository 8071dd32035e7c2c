import AgentFlow.Data.Value

/-!
# Reading JSON

`Json.read?` reads a whole text as one value.  Whole numbers that fit a machine word stay whole, all
others become numbers of double precision; a number too large for that makes the text unreadable.
The reader recurses on a count that starts at the length of the text, which no reading outruns since
every step takes a character.
-/

namespace AgentFlow.Json

open Data

/-- The blanks of JSON. -/
def isSpace (c : Char) : Bool := c == ' ' || c == '\t' || c == '\n' || c == '\r'

/-- The text from its first character that is no blank. -/
def skipSpace (cs : List Char) : List Char := cs.dropWhile isSpace

/-! ## Texts -/

def hexValue? (c : Char) : Option Nat :=
  if '0' ≤ c ∧ c ≤ '9' then some (c.toNat - '0'.toNat)
  else if 'a' ≤ c ∧ c ≤ 'f' then some (c.toNat - 'a'.toNat + 10)
  else if 'A' ≤ c ∧ c ≤ 'F' then some (c.toNat - 'A'.toNat + 10)
  else none

/-- The value of four hexadecimal digits, and the rest. -/
def hex4? : List Char → Option (Nat × List Char)
  | a :: b :: c :: d :: rest => do
    let a ← hexValue? a
    let b ← hexValue? b
    let c ← hexValue? c
    let d ← hexValue? d
    some (((a * 16 + b) * 16 + c) * 16 + d, rest)
  | _ => none

/-- The character of an escape after `\u`.  Two halves of a surrogate pair make one character; a
half alone is unreadable. -/
def unicodeEscape? (cs : List Char) : Option (Char × List Char) := do
  let (n, rest) ← hex4? cs
  if 0xD800 ≤ n ∧ n < 0xDC00 then
    match rest with
    | '\\' :: 'u' :: rest =>
      let (m, rest) ← hex4? rest
      if 0xDC00 ≤ m ∧ m < 0xE000 then
        some (Char.ofNat (0x10000 + (n - 0xD800) * 0x400 + (m - 0xDC00)), rest)
      else none
    | _ => none
  else if 0xDC00 ≤ n ∧ n < 0xE000 then none
  else some (Char.ofNat n, rest)

/-- The character of an escape after the backslash. -/
def escape? : List Char → Option (Char × List Char)
  | '"' :: rest => some ('"', rest)
  | '\\' :: rest => some ('\\', rest)
  | '/' :: rest => some ('/', rest)
  | 'b' :: rest => some ('\x08', rest)
  | 'f' :: rest => some ('\x0c', rest)
  | 'n' :: rest => some ('\n', rest)
  | 'r' :: rest => some ('\r', rest)
  | 't' :: rest => some ('\t', rest)
  | 'u' :: rest => unicodeEscape? rest
  | _ => none

/-- The characters up to the closing quote in reverse, after `seen`, and what follows the quote. -/
def textBody : (fuel : Nat) → (seen : List Char) → List Char → Option (List Char × List Char)
  | 0, _, _ => none
  | _ + 1, _, [] => none
  | fuel + 1, seen, c :: rest =>
    if c == '"' then some (seen, rest)
    else if c == '\\' then
      match escape? rest with
      | some (d, rest) => textBody fuel (d :: seen) rest
      | none => none
    else if c.toNat < 0x20 then none
    else textBody fuel (c :: seen) rest

def text? (fuel : Nat) (cs : List Char) : Option (String × List Char) :=
  (textBody fuel [] cs).map fun (seen, rest) => (String.ofList seen.reverse, rest)

/-! ## Numbers -/

def digits (cs : List Char) : List Char × List Char :=
  (cs.takeWhile Char.isDigit, cs.dropWhile Char.isDigit)

/-- The number that decimal digits write. -/
def natOf (ds : List Char) : Nat := ds.foldl (fun n c => n * 10 + (c.toNat - '0'.toNat)) 0

/-- The double precision number nearest to `m · 10 ^ e`, unless it is too large. -/
def realOf? (m : Nat) (e : Int) : Option Float :=
  let length := (toString m).length
  if m = 0 then some 0
  else if e + length > 310 then none
  else if e + length < -330 then some 0
  else
    let x := Float.ofScientific m (e < 0) e.natAbs
    if x.isFinite then some x else none

/-- The digits of an exponent with their sign, after the letter. -/
def exponent? (cs : List Char) : Option (Int × List Char) :=
  let (negative, cs) :=
    match cs with
    | '-' :: rest => (true, rest)
    | '+' :: rest => (false, rest)
    | _ => (false, cs)
  match digits cs with
  | ([], _) => none
  | (ds, rest) => some (if negative then -(natOf ds : Int) else natOf ds, rest)

def number? (negative : Bool) (cs : List Char) : Option (Value × List Char) := do
  let (whole, rest) := digits cs
  if whole.isEmpty || (whole.length > 1 && whole.head? == some '0') then none
  let (fraction, rest) ←
    match rest with
    | '.' :: rest =>
      match digits rest with
      | ([], _) => none
      | (ds, rest) => some (some ds, rest)
    | _ => some (none, rest)
  let (power, rest) ←
    match rest with
    | 'e' :: rest => (exponent? rest).map fun (e, rest) => (some e, rest)
    | 'E' :: rest => (exponent? rest).map fun (e, rest) => (some e, rest)
    | _ => some (none, rest)
  let n := natOf whole
  let fits := if negative then 0 < n && n ≤ Number.halfWord else n < Number.wordCount
  if fraction.isNone && power.isNone && fits then
    some (.int (if negative then -(n : Int) else n), rest)
  else
    let ds := fraction.getD []
    let x ← realOf? (natOf (whole ++ ds)) (power.getD 0 - ds.length)
    some (.real (if negative then -x else x), rest)

/-! ## Values -/

def after? (word : String) (cs : List Char) : Option (List Char) :=
  if word.toList.isPrefixOf cs then some (cs.drop word.length) else none

mutual

def value? : (fuel : Nat) → List Char → Option (Value × List Char)
  | 0, _ => none
  | fuel + 1, cs =>
    match skipSpace cs with
    | '"' :: rest => (text? fuel rest).map fun (s, rest) => (.text s, rest)
    | '[' :: rest =>
      match skipSpace rest with
      | ']' :: rest => some (.list [], rest)
      | rest => (items? fuel rest).map fun (items, rest) => (.list items, rest)
    | '\x7b' :: rest =>
      match skipSpace rest with
      | '\x7d' :: rest => some (.table [], rest)
      | rest => (members? fuel rest).map fun (members, rest) => (.table members, rest)
    | '-' :: rest => number? true rest
    | 't' :: rest => (after? "rue" rest).map (.bool true, ·)
    | 'f' :: rest => (after? "alse" rest).map (.bool false, ·)
    | 'n' :: rest => (after? "ull" rest).map (.null, ·)
    | rest => number? false rest

/-- The items of a list that is not empty, up to its closing bracket. -/
def items? : (fuel : Nat) → List Char → Option (List Value × List Char)
  | 0, _ => none
  | fuel + 1, cs => do
    let (v, rest) ← value? fuel cs
    match skipSpace rest with
    | ',' :: rest =>
      let (vs, rest) ← items? fuel rest
      some (v :: vs, rest)
    | ']' :: rest => some ([v], rest)
    | _ => none

/-- The members of a table that is not empty, up to its closing brace. -/
def members? : (fuel : Nat) → List Char → Option (List (String × Value) × List Char)
  | 0, _ => none
  | fuel + 1, cs => do
    match skipSpace cs with
    | '"' :: rest =>
      let (k, rest) ← text? fuel rest
      match skipSpace rest with
      | ':' :: rest =>
        let (v, rest) ← value? fuel rest
        match skipSpace rest with
        | ',' :: rest =>
          let (more, rest) ← members? fuel rest
          some ((k, v) :: more, rest)
        | '\x7d' :: rest => some ([(k, v)], rest)
        | _ => none
      | _ => none
    | _ => none

end

/-- The value that a text writes, if it writes exactly one. -/
def read? (s : String) : Option Value :=
  let cs := s.toList
  match value? (2 * cs.length + 2) cs with
  | some (v, rest) => if (skipSpace rest).isEmpty then some v else none
  | none => none

mutual

/-- The value with the last member of each key only, in every table. -/
def lastMembers : Value → Value
  | .list items => .list (lastMembersAll items)
  | .table members => .table (lastMembersOf members)
  | v => v

def lastMembersAll : List Value → List Value
  | [] => []
  | v :: vs => lastMembers v :: lastMembersAll vs

def lastMembersOf : List (String × Value) → List (String × Value)
  | [] => []
  | (k, v) :: more =>
    if more.any (·.1 == k) then lastMembersOf more else (k, lastMembers v) :: lastMembersOf more

end

end AgentFlow.Json
