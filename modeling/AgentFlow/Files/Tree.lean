import AgentFlow.Data.SortedMap
import AgentFlow.Fault
import AgentFlow.Text.Split

/-!
# Directory trees

Paths are texts with slashes between their steps, as they are given and shown.  A tree holds files
and directories by their places, the steps that lead to them from the root.  A path in a tree starts
at the root; it is followed step by step, and every step but the last has to lead to a directory.

* `Tree.get?_put_self`, `Tree.get?_put_of_ne`: a change is seen at its place and nowhere else.
* `Disk` is the type of activities that change a tree; what they did before a fault stays done.
-/

namespace AgentFlow.Files

open Data

/-! ## Paths -/

/-- The path of `rest` seen from `base`; a `rest` that starts at the root stands for itself. -/
def joinPath (base rest : String) : String :=
  if Text.startsWith rest "/" || base.isEmpty then rest
  else if Text.endsWith base "/" then base ++ rest
  else base ++ "/" ++ rest

/-- The steps of a path.  Empty steps count for nothing. -/
def steps (path : String) : List String := (Text.pieces (· == '/') path).filter (· != "")

/-- Whether a path stays below the place that it is seen from. -/
def isContained (path : String) : Bool :=
  path != "" && !Text.startsWith path "/" && !(steps path).contains ".."

/-- The part of a name behind its last dot, unless that dot starts the name. -/
def extension? (name : String) : Option String :=
  match Text.splitWhere (· == '.') name.toList with
  | [] => none
  | [_] => none
  | first :: rest =>
    if first.isEmpty && rest.length == 1 then none else rest.getLast?.map String.ofList

/-! ## Trees -/

/-- The steps from the root to a file or directory. -/
abbrev Place := List String

inductive Entry where
  | directory
  | file (content : ByteArray)

/-- A tree of files and directories; the root is always there. -/
structure Tree where
  entries : SortedMap Place Entry := .empty

/-- The most bytes that the name of a file or directory may have. -/
def longestName : Nat := 255

/-- Whether a name can be given to a file or directory. -/
def isName (name : String) : Bool :=
  name != "" && name != "." && name != ".." && name.utf8ByteSize ≤ longestName &&
    !name.toList.contains '\x00'

namespace Tree

def get? (t : Tree) (p : Place) : Option Entry :=
  if p = [] then some .directory else t.entries.get? p

def put (t : Tree) (p : Place) (e : Entry) : Tree := ⟨t.entries.insert p e⟩

theorem get?_put_self (t : Tree) {p : Place} (h : p ≠ []) (e : Entry) :
    (t.put p e).get? p = some e := by
  simp [get?, put, h, SortedMap.get?_insert_self]

theorem get?_put_of_ne (t : Tree) {p q : Place} (h : q ≠ p) (e : Entry) :
    (t.put p e).get? q = t.get? q := by
  simp [get?, put, SortedMap.get?_insert_of_ne _ h]

def hasDirectory (t : Tree) (p : Place) : Bool :=
  match t.get? p with
  | some .directory => true
  | _ => false

/-! ## Following paths -/

inductive DeadEnd where
  | missing
  | notDirectory
  deriving DecidableEq

/-- The place of a single step from a directory, whether or not something is there. -/
def next (p : Place) (step : String) : Place :=
  if step == "" || step == "." then p
  else if step == ".." then p.dropLast
  else p ++ [step]

/-- The place that a path from the root leads to, whether or not something is there. -/
def placeOf (path : String) : Place := (Text.pieces (· == '/') path).foldl next []

def enter (t : Tree) (p : Place) : List String → Except DeadEnd Place
  | [] => .ok p
  | step :: rest =>
    match t.get? (next p step) with
    | some .directory => enter t (next p step) rest
    | some (.file _) => .error .notDirectory
    | none => .error .missing

/-- The steps of a path with the empty ones that slashes at its end leave. -/
def rawSteps (path : String) : List String := Text.pieces (· == '/') path

def lookUp (t : Tree) (path : String) : Except DeadEnd (Place × Entry) := do
  let raw := rawSteps path
  let last := raw.getLastD ""
  let p ← t.enter [] raw.dropLast
  match t.get? (next p last) with
  | some e => .ok (next p last, e)
  | none => .error .missing

def hasPath (t : Tree) (path : String) : Bool := (t.lookUp path).toOption.isSome

def read? (t : Tree) (path : String) : Except Fault ByteArray :=
  match t.lookUp path with
  | .ok (_, .file content) => .ok content
  | _ => .error .io

def readText? (t : Tree) (path : String) : Except Fault String := do
  match String.fromUTF8? (← t.read? path) with
  | some s => .ok s
  | none => .error .io

end Tree

/-! ## Changing a tree -/

/-- Activities on a tree.  What was done before a fault stays done. -/
abbrev Disk := ExceptT Fault (StateM Tree)

namespace Disk

/-- The steps of a path that count, with those that lead upwards. -/
def plainSteps (path : String) : List String := (steps path).filter (· != ".")

/-- Makes the directories that steps lead through, where they are missing. -/
def makeSteps (p : Place) : List String → Disk Unit
  | [] => pure ()
  | step :: rest => do
    let q := Tree.next p step
    match (← get).get? q with
    | some .directory => makeSteps q rest
    | some (.file _) => throw .io
    | none =>
      if isName step then
        modify (·.put q .directory)
        makeSteps q rest
      else throw .io

/-- Makes a directory and those that it lies in, where they are missing. -/
def makeDirectory (path : String) : Disk Unit := makeSteps [] (plainSteps path)

def makeParent (path : String) : Disk Unit := makeSteps [] (plainSteps path).dropLast

def write (path : String) (content : ByteArray) : Disk Unit := do
  let t ← get
  let raw := Tree.rawSteps path
  let name := raw.getLastD ""
  match t.enter [] raw.dropLast with
  | .error _ => throw .io
  | .ok p =>
    if isName name && !t.hasDirectory (p ++ [name]) then set (t.put (p ++ [name]) (.file content))
    else throw .io

def writeText (path text : String) : Disk Unit := write path text.toUTF8

end Disk

end AgentFlow.Files
