import AgentFlow.Number.Single
import AgentFlow.Number.Word

/-!
# Values of data formats

One tree for the values that JSON, YAML and TOML texts hold, and the readers that take typed data
out of it.  A reader answers `none` for a value of the wrong shape.

* A record is given by a table of its fields or by the list of them in their declared order.
* A bare scalar (unquoted text of YAML) is text, truth value or nothing as its reader wants; an
  empty one also stands for a list or a table without members.
-/

namespace AgentFlow.Data

inductive Value where
  | null
  | bool (b : Bool)
  | int (n : Int)
  | real (x : Float)
  /-- A number of single precision. -/
  | single (x : Float32)
  | text (s : String)
  /-- A scalar without quotes whose kind its reader decides. -/
  | bare (s : String)
  | list (items : List Value)
  | table (members : List (String × Value))

namespace Value

def texts (items : List String) : Value := .list (items.map .text)

def nat (n : Nat) : Value := .int n

/-! ## Scalars -/

def maxCount : Nat := Number.wordCount - 1

def bareNull (s : String) : Bool := s == "" || s == "~" || s == "null" || s == "Null" || s == "NULL"

def bareBool? (s : String) : Option Bool :=
  if s == "true" || s == "True" || s == "TRUE" then some true
  else if s == "false" || s == "False" || s == "FALSE" then some false
  else none

def isNull : Value → Bool
  | .null => true
  | .bare s => bareNull s
  | _ => false

def text? : Value → Option String
  | .text s => some s
  | .bare s => some s
  | _ => none

def bool? : Value → Option Bool
  | .bool b => some b
  | .bare s => bareBool? s
  | _ => none

/-- A count: a natural number that fits a machine word. -/
def count? : Value → Option Nat
  | .int n => if 0 ≤ n ∧ n ≤ maxCount then some n.toNat else none
  | _ => none

/-- A number of single precision; whole numbers are rounded to it directly. -/
def single? : Value → Option Float32
  | .int n =>
    some (if 0 ≤ n then (UInt64.ofNat n.toNat).toFloat32 else -(UInt64.ofNat (-n).toNat).toFloat32)
  | .real x => some (Number.Double.toSingle x)
  | .single x => some x
  | _ => none

/-! ## Compound values -/

def list? {α : Type} (read : Value → Option α) : Value → Option (List α)
  | .list items => items.mapM read
  | .bare s => if s == "" then some [] else none
  | _ => none

def optional? {α : Type} (read : Value → Option α) (v : Value) : Option (Option α) :=
  if v.isNull then some none else (read v).map some

def members? {α : Type} (read : Value → Option α) : Value → Option (List (String × α))
  | .table members => members.mapM fun (k, v) => (read v).map fun a => (k, a)
  | .bare s => if s == "" then some [] else none
  | _ => none

/-- One name out of a list of names; also as a table with the name as its only key and no value. -/
def name? : Value → Option String
  | .text s => some s
  | .bare s => some s
  | .table [(s, .null)] => some s
  | _ => none

def allAt (k : String) (members : List (String × Value)) : List Value :=
  (members.filter (·.1 == k)).map (·.2)

/-- The fields of a record with the given names, `none` for a field that is not there.  A field
stated twice makes the record unreadable. -/
def fields? (names : List String) : Value → Option (List (Option Value))
  | .table members =>
    names.mapM fun k =>
      match allAt k members with
      | [] => some none
      | [v] => some (some v)
      | _ => none
  | .list items =>
    if items.length ≤ names.length then
      some (items.map some ++ List.replicate (names.length - items.length) none)
    else none
  | .bare s => if s == "" then some (names.map fun _ => none) else none
  | _ => none

def required {α : Type} (read : Value → Option α) (field : Option Value) : Option α :=
  field.bind read

/-- A field that stands for `default` when it is not there. -/
def orElse {α : Type} (read : Value → Option α) (default : α) (field : Option Value) : Option α :=
  match field with
  | none => some default
  | some v => read v

end Value

end AgentFlow.Data
