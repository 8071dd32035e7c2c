import AgentFlow.Data.Value
import AgentFlow.Text.Quoted

/-!
# Writing JSON

`Json.compact` writes a value without blanks; `Json.pretty` puts every member on a line of its own,
indented by two blanks a level.  Numbers that are not finite are written as `null`.
-/

namespace AgentFlow.Json

open Data

def scalar : Value → String
  | .null => "null"
  | .bool true => "true"
  | .bool false => "false"
  | .int n => toString n
  | .real x => if x.isFinite then Number.Double.text x else "null"
  | .single x => if x.isFinite then Number.Single.text x else "null"
  | .text s => Text.quoted s
  | .bare s => Text.quoted s
  | .list _ => ""
  | .table _ => ""

mutual

def compact : Value → String
  | .list items => "[" ++ ",".intercalate (compactAll items) ++ "]"
  | .table members => "\x7b" ++ ",".intercalate (compactMembers members) ++ "\x7d"
  | v => scalar v

def compactAll : List Value → List String
  | [] => []
  | v :: vs => compact v :: compactAll vs

def compactMembers : List (String × Value) → List String
  | [] => []
  | (k, v) :: more => (Text.quoted k ++ ":" ++ compact v) :: compactMembers more

end

def indent (level : Nat) : String := String.ofList (List.replicate (2 * level) ' ')

/-- A bracketed list of written members, each on a line of its own. -/
def block (level : Nat) (opening closing : String) (members : List String) : String :=
  match members with
  | [] => opening ++ closing
  | _ =>
    opening ++ "\n" ++ indent (level + 1) ++ (",\n" ++ indent (level + 1)).intercalate members ++
      "\n" ++ indent level ++ closing

mutual

def prettyAt (level : Nat) : Value → String
  | .list items => block level "[" "]" (prettyAll (level + 1) items)
  | .table members => block level "\x7b" "\x7d" (prettyMembers (level + 1) members)
  | v => scalar v

def prettyAll (level : Nat) : List Value → List String
  | [] => []
  | v :: vs => prettyAt level v :: prettyAll level vs

def prettyMembers (level : Nat) : List (String × Value) → List String
  | [] => []
  | (k, v) :: more => (Text.quoted k ++ ": " ++ prettyAt level v) :: prettyMembers level more

end

/-- The value with every member on a line of its own. -/
def pretty (v : Value) : String := prettyAt 0 v

end AgentFlow.Json
