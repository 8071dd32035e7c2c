import AgentFlow.Text.Blank
import AgentFlow.Text.Split
import AgentFlow.Toml.Scalar

/-!
# Settings in environment variables

A variable whose name starts with `POCKETFORGE_` states a setting.  Two underscores in the name lead
into a table.  The value is a truth value, a number, a text between quotes, a list in brackets or a
table in braces; anything else is a text as it stands.
-/

namespace AgentFlow.Variable

open Data

def isSpace (c : Char) : Bool := c == ' ' || c == '\t' || c == '\n' || c == '\x0c' || c == '\r'

def skipSpace (cs : List Char) : List Char := cs.dropWhile isSpace

/-- Whether a character ends a value without quotes. -/
def isSeparator (c : Char) : Bool := c == ',' || c == '\x7b' || c == '\x7d' || c == '[' || c == ']'

def sign : List Char → Bool × List Char
  | '-' :: rest => (true, rest)
  | '+' :: rest => (false, rest)
  | cs => (false, cs)

/-- A number with a point. -/
def real? (cs : List Char) : Option Float := do
  let (negative, cs) := sign cs
  let (whole, rest) := cs.span Char.isDigit
  let (fraction, rest) :=
    match rest with
    | '.' :: rest => rest.span Char.isDigit
    | _ => ([], rest)
  if whole.isEmpty && fraction.isEmpty then none
  let power ←
    match rest with
    | [] => some 0
    | c :: rest =>
      let (down, rest) := sign rest
      if (c == 'e' || c == 'E') && !rest.isEmpty && rest.all Char.isDigit then
        let e : Int := Json.natOf rest
        some (if down then -e else e)
      else none
  let digits := Json.natOf (whole ++ fraction)
  let x := (Json.realOf? digits (power - fraction.length)).getD (1.0 / 0.0)
  some (if negative then -x else x)

/-- A whole number that fits a machine word, with or without sign. -/
def whole? (cs : List Char) : Option Int :=
  let (negative, ds) := sign cs
  let n : Int := Json.natOf ds
  if ds.isEmpty || !ds.all Char.isDigit then none
  else if negative then if n ≤ Number.halfWord then some (-n) else none
  else if n < Number.wordCount then some n
  else none

def plainValue (cs : List Char) : Value :=
  let whole : Value :=
    match whole? cs with
    | some n => .int n
    | none => .text (String.ofList cs)
  if cs.contains '.' then
    match real? cs with
    | some x => .real x
    | none => whole
  else whole

def key? (fuel : Nat) (cs : List Char) : Option (String × List Char) :=
  match cs with
  | '"' :: rest => Toml.basicBody fuel [] rest
  | _ =>
    match cs.span fun c => c.isAlphanum || c == '_' || c == '-' with
    | ([], _) => none
    | (key, rest) => some (String.ofList key, rest)

mutual

def value? : (fuel : Nat) → List Char → Option (Value × List Char)
  | 0, _ => none
  | fuel + 1, cs =>
    let cs := skipSpace cs
    let read : Option (Value × List Char) :=
      match Toml.behind? "true" cs, Toml.behind? "false" cs with
      | some rest, _ => some (.bool true, rest)
      | none, some rest => some (.bool false, rest)
      | none, none =>
        match cs with
        | '\x7b' :: rest => (members? fuel rest).map fun (members, rest) => (.table members, rest)
        | '[' :: rest => (items? fuel rest).map fun (items, rest) => (.list items, rest)
        | '"' :: rest => (Toml.basicBody fuel [] rest).map fun (s, rest) => (.text s, rest)
        | '\'' :: rest =>
          match rest with
          | c :: '\'' :: rest => some (.text (String.singleton c), rest)
          | _ => none
        | _ =>
          let (own, rest) := cs.span fun c => !isSeparator c
          some (plainValue (Text.dropBlankEnd (Text.dropBlank own)), rest)
    read.map fun (v, rest) => (v, skipSpace rest)

/-- The items of a list up to its closing bracket. -/
def items? : (fuel : Nat) → List Char → Option (List Value × List Char)
  | 0, _ => none
  | _ + 1, ']' :: rest => some ([], rest)
  | fuel + 1, cs => do
    let (v, rest) ← value? fuel cs
    match rest with
    | ',' :: rest =>
      let (vs, rest) ← items? fuel rest
      some (v :: vs, rest)
    | ']' :: rest => some ([v], rest)
    | _ => none

/-- The members of a table up to its closing brace. -/
def members? : (fuel : Nat) → List Char → Option (List (String × Value) × List Char)
  | 0, _ => none
  | _ + 1, '\x7d' :: rest => some ([], rest)
  | fuel + 1, cs => do
    let (key, rest) ← key? fuel (skipSpace cs)
    let rest ← Toml.behind? "=" (skipSpace rest)
    let (v, rest) ← value? fuel rest
    match rest with
    | ',' :: rest =>
      let (more, rest) ← members? fuel rest
      some ((key, v) :: more, rest)
    | '\x7d' :: rest => some ([(key, v)], rest)
    | _ => none

end

def valueOf (s : String) : Value :=
  match value? (2 * s.length + 2) s.toList with
  | some (v, []) => v
  | _ => .text s

/-- The names of variables for settings start like this, in whatever case. -/
def marker : String := "POCKETFORGE_"

/-- The letters of the alphabet in lower case, all else as it is. -/
def lowerLetters (s : String) : String := String.ofList (s.toList.map Char.toLower)

/-- Every two underscores as a point. -/
def pointed : List Char → List Char
  | '_' :: '_' :: rest => '.' :: pointed rest
  | c :: rest => c :: pointed rest
  | [] => []

def keysOf? (name : String) : Option (List String) := do
  let rest ← Text.afterHead? (lowerLetters marker) (lowerLetters (Text.trim name))
  let keys := Text.pieces (· == '.') (Text.trim (String.ofList (pointed rest.toList)))
  if keys.any String.isEmpty then none else some keys

def nest (v : Value) : List String → Value
  | [] => v
  | key :: keys => .table [(key, nest v keys)]

def setting? (name value : String) : Option Value := (keysOf? name).map (nest (valueOf value))

end AgentFlow.Variable
