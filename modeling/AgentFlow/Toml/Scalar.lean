import AgentFlow.Json.Reader

/-!
# Reading the scalars of TOML

Texts between quotes, whole numbers, numbers with a fraction, dates and times.  Every reader takes
what it reads from the start of the text and answers with the rest.

* Whole numbers fit a signed machine word; underscores may stand between digits.
* Dates and times are checked and then read as a table without members, since no setting is one.
-/

namespace AgentFlow.Toml

open Data

def behind? (head : String) (cs : List Char) : Option (List Char) :=
  if head.toList.isPrefixOf cs then some (cs.drop head.length) else none

def lineBreak? : List Char → Option (List Char)
  | '\n' :: rest => some rest
  | '\r' :: '\n' :: rest => some rest
  | _ => none

/-- Whether a character can stand in a text as it is. -/
def isPlainChar (c : Char) : Bool := c == '\t' || (c.toNat ≥ 0x20 && c != '\x7f')

/-- Whether a character is a blank in a line. -/
def isSpace (c : Char) : Bool := c == ' ' || c == '\t'

/-- The text from its first character that is no blank. -/
def skipSpace (cs : List Char) : List Char := cs.dropWhile isSpace

/-! ## Texts -/

/-- The value of as many hexadecimal digits as `count`, and the rest. -/
def hexDigits? (count : Nat) (cs : List Char) : Option (Nat × List Char) := do
  let ds ← (cs.take count).mapM Json.hexValue?
  if ds.length = count then some (ds.foldl (fun n d => n * 16 + d) 0, cs.drop count) else none

def codeEscape? (count : Nat) (cs : List Char) : Option (Char × List Char) := do
  let (n, rest) ← hexDigits? count cs
  if n < 0xD800 ∨ (0xDFFF < n ∧ n < 0x110000) then some (Char.ofNat n, rest) else none

/-- The character of an escape behind its backslash. -/
def escape? : List Char → Option (Char × List Char)
  | '"' :: rest => some ('"', rest)
  | '\\' :: rest => some ('\\', rest)
  | 'b' :: rest => some ('\x08', rest)
  | 'f' :: rest => some ('\x0c', rest)
  | 'n' :: rest => some ('\n', rest)
  | 'r' :: rest => some ('\r', rest)
  | 't' :: rest => some ('\t', rest)
  | 'u' :: rest => codeEscape? 4 rest
  | 'U' :: rest => codeEscape? 8 rest
  | _ => none

/-- The rest behind a line that a backslash ends, with the blanks and lines that follow it. -/
def foldedLine? (cs : List Char) : Option (List Char) :=
  (lineBreak? (skipSpace cs)).map fun rest =>
    rest.dropWhile fun c => isSpace c || c == '\n' || c == '\r'

/-- The text up to its closing double quote. -/
def basicBody : (fuel : Nat) → (seen : List Char) → List Char → Option (String × List Char)
  | 0, _, _ => none
  | _ + 1, _, [] => none
  | fuel + 1, seen, c :: rest =>
    if c == '"' then some (String.ofList seen.reverse, rest)
    else if c == '\\' then
      match escape? rest with
      | some (d, rest) => basicBody fuel (d :: seen) rest
      | none => none
    else if isPlainChar c then basicBody fuel (c :: seen) rest
    else none

/-- The text up to its closing single quote. -/
def literalBody (cs : List Char) : Option (String × List Char) :=
  match cs.span fun c => isPlainChar c && c != '\'' with
  | (inside, '\'' :: rest) => some (String.ofList inside, rest)
  | _ => none

/-- The quotes at the start of a text on several lines: `none` if they do not end it, and otherwise
those that still belong to it. -/
def closingQuotes (quote : Char) (cs : List Char) : Option (List Char × List Char) :=
  let count := (cs.takeWhile (· == quote)).length
  if count < 3 then none
  else
    let inside := min (count - 3) 2
    some (List.replicate inside quote, cs.drop (inside + 3))

/-- The text on several lines up to its closing quotes.  Escapes count if `escapes` holds. -/
def linesBody (quote : Char) (escapes : Bool) :
    (fuel : Nat) → (seen : List Char) → List Char → Option (String × List Char)
  | 0, _, _ => none
  | _ + 1, _, [] => none
  | fuel + 1, seen, c :: rest =>
    match if c == quote then closingQuotes quote (c :: rest) else none with
    | some (inside, rest) => some (String.ofList (inside ++ seen).reverse, rest)
    | none =>
      match lineBreak? (c :: rest) with
      | some rest => linesBody quote escapes fuel ('\n' :: seen) rest
      | none =>
        if c == '\\' && escapes then
          match foldedLine? rest with
          | some rest => linesBody quote escapes fuel seen rest
          | none =>
            match escape? rest with
            | some (d, rest) => linesBody quote escapes fuel (d :: seen) rest
            | none => none
        else if isPlainChar c then linesBody quote escapes fuel (c :: seen) rest
        else none

def dropBreak (cs : List Char) : List Char := (lineBreak? cs).getD cs

def text? (fuel : Nat) (cs : List Char) : Option (String × List Char) :=
  match behind? "\"\"\"" cs, behind? "'''" cs, cs with
  | some rest, _, _ => linesBody '"' true fuel [] (dropBreak rest)
  | none, some rest, _ => linesBody '\'' false fuel [] (dropBreak rest)
  | none, none, '"' :: rest => basicBody fuel [] rest
  | none, none, '\'' :: rest => literalBody rest
  | _, _, _ => none

/-! ## Numbers -/

/-- Digits that `p` accepts, with single underscores between them, and the rest. -/
def moreDigits (p : Char → Bool) : List Char → List Char × List Char
  | [] => ([], [])
  | [c] => if p c then ([c], []) else ([], [c])
  | c :: d :: rest =>
    if p c then
      let (ds, after) := moreDigits p (d :: rest)
      (c :: ds, after)
    else if c == '_' && p d then moreDigits p (d :: rest)
    else ([], c :: d :: rest)

def digits? (p : Char → Bool) (cs : List Char) : Option (List Char × List Char) :=
  match cs with
  | c :: _ => if p c then some (moreDigits p cs) else none
  | [] => none

def sign (cs : List Char) : Bool × List Char :=
  match cs with
  | '-' :: rest => (true, rest)
  | '+' :: rest => (false, rest)
  | _ => (false, cs)

def decimal? (cs : List Char) : Option (List Char × List Char) :=
  match cs with
  | '0' :: rest => some (['0'], rest)
  | _ => digits? Char.isDigit cs

def ofDigits (base : Nat) (ds : List Char) : Nat :=
  ds.foldl (fun n c => n * base + (Json.hexValue? c).getD 0) 0

def word? (n : Int) (rest : List Char) : Option (Value × List Char) :=
  if Number.fitsWord n then some (.int n, rest) else none

/-- A whole number in a base that its start states. -/
def basedInt? (cs : List Char) : Option (Option (Value × List Char)) :=
  let read (base : Nat) (p : Char → Bool) (cs : List Char) : Option (Value × List Char) :=
    (digits? p cs).bind fun (ds, rest) => word? (ofDigits base ds) rest
  match cs with
  | '0' :: 'x' :: rest => some (read 16 (fun c => (Json.hexValue? c).isSome) rest)
  | '0' :: 'o' :: rest => some (read 8 (fun c => '0' ≤ c && c ≤ '7') rest)
  | '0' :: 'b' :: rest => some (read 2 (fun c => c == '0' || c == '1') rest)
  | _ => none

def fraction? : List Char → Option (List Char × List Char)
  | '.' :: rest => digits? Char.isDigit rest
  | _ => none

def exponent? (cs : List Char) : Option (Int × List Char) :=
  let read (cs : List Char) : Option (Int × List Char) :=
    let (negative, cs) := sign cs
    (digits? Char.isDigit cs).map fun (ds, rest) =>
      (if negative then -(ofDigits 10 ds : Int) else ofDigits 10 ds, rest)
  match cs with
  | 'e' :: rest => read rest
  | 'E' :: rest => read rest
  | _ => none

/-- A number without a sign: whole, or with a fraction or an exponent. -/
def unsigned? (negative : Bool) (cs : List Char) : Option (Value × List Char) := do
  let (whole, rest) ← decimal? cs
  let (fraction, rest') := (fraction? rest).getD ([], rest)
  let power := exponent? rest'
  if fraction.isEmpty && power.isNone then
    word? (if negative then -(ofDigits 10 whole : Int) else ofDigits 10 whole) rest
  else
    let (e, rest') := power.getD (0, rest')
    let x ← Json.realOf? (ofDigits 10 (whole ++ fraction)) (e - fraction.length)
    some (.real (if negative then -x else x), rest')

def number? (cs : List Char) : Option (Value × List Char) :=
  match basedInt? cs with
  | some read => read
  | none =>
    let (negative, body) := sign cs
    match behind? "inf" body, behind? "nan" body with
    | some rest, _ => some (.real (if negative then -(1.0 / 0.0) else 1.0 / 0.0), rest)
    | none, some rest => some (.real (0.0 / 0.0), rest)
    | none, none => unsigned? negative body

/-! ## Dates and times -/

/-- The number of exactly as many decimal digits as `count`, if it lies between `low` and `high`. -/
def part? (count low high : Nat) (cs : List Char) : Option (Nat × List Char) :=
  let ds := cs.take count
  if ds.length = count ∧ ds.all Char.isDigit then
    let n := ofDigits 10 ds
    if low ≤ n ∧ n ≤ high then some (n, cs.drop count) else none
  else none

def daysIn (year month : Nat) : Nat :=
  if month = 2 then if year % 4 = 0 ∧ (year % 100 ≠ 0 ∨ year % 400 = 0) then 29 else 28
  else if month ∈ [4, 6, 9, 11] then 30
  else 31

def date? (cs : List Char) : Option (List Char) := do
  let (year, rest) ← part? 4 0 9999 cs
  let rest ← behind? "-" rest
  let (month, rest) ← part? 2 1 12 rest
  let rest ← behind? "-" rest
  let (_, rest) ← part? 2 1 (daysIn year month) rest
  some rest

def time? (cs : List Char) : Option (List Char) := do
  let (_, rest) ← part? 2 0 23 cs
  let rest ← behind? ":" rest
  let (_, rest) ← part? 2 0 59 rest
  let rest ← behind? ":" rest
  let (_, rest) ← part? 2 0 60 rest
  match rest with
  | '.' :: more =>
    let ds := more.takeWhile Char.isDigit
    if ds.isEmpty then none else some (more.drop ds.length)
  | _ => some rest

/-- The rest behind the offset of a time, if there is one. -/
def offset (cs : List Char) : List Char :=
  let hours (rest : List Char) : Option (List Char) := do
    let (_, rest) ← part? 2 0 23 rest
    let rest ← behind? ":" rest
    let (_, rest) ← part? 2 0 59 rest
    some rest
  match cs with
  | 'Z' :: rest => rest
  | 'z' :: rest => rest
  | '+' :: rest => (hours rest).getD cs
  | '-' :: rest => (hours rest).getD cs
  | _ => cs

def moment? (cs : List Char) : Option (List Char) :=
  match date? cs with
  | some rest =>
    match rest with
    | d :: more =>
      if d == 'T' || d == 't' || d == ' ' then some (((time? more).map offset).getD rest)
      else some rest
    | [] => some []
  | none => time? cs

def scalar? (cs : List Char) : Option (Value × List Char) :=
  match behind? "true" cs, behind? "false" cs, moment? cs with
  | some rest, _, _ => some (.bool true, rest)
  | none, some rest, _ => some (.bool false, rest)
  | none, none, some rest => some (.table [], rest)
  | none, none, none => number? cs

end AgentFlow.Toml
