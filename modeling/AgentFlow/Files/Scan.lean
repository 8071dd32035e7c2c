import AgentFlow.Files.Glob
import AgentFlow.Files.Ignore

/-!
# Scanning a directory

`scan` finds the Python files below a directory that neither an exclude pattern nor an ignore file
leaves out, in the order of their places.  Files above a size limit are told apart with the reason.
-/

namespace AgentFlow.Files

/-- A file that a scan found, by its path as shown. -/
structure Found where
  path : String
  content : ByteArray

/-- What a scan found, and what it had to skip with the reasons. -/
structure Scan where
  found : List Found
  skipped : List (String × String)

/-- The largest size of a file that is scanned, in bytes. -/
def sizeLimit : Nat := 1048576

structure ScanOptions where
  /-- Where a path that does not start at the root is seen from. -/
  base : String
  target : String
  exclude : List Glob
  limit : Nat := sizeLimit

namespace ScanOptions

/-- The path of the scanned file or directory from the root on. -/
def fullPath (o : ScanOptions) : String := joinPath o.base o.target

/-- The path that is shown for the place that `inside` leads to from the scanned directory. -/
def shown (o : ScanOptions) (inside : Place) : String :=
  if inside.isEmpty then o.target else joinPath o.target ("/".intercalate inside)

/-- Whether an exclude pattern stands for the path as shown or as seen from the directory of the
scan. -/
def excludes (o : ScanOptions) (inside : Place) : Bool :=
  o.exclude.any fun g => g.accepts (o.shown inside) || g.accepts ("/".intercalate inside)

end ScanOptions

def isPythonName (name : String) : Bool := extension? name == some "py"

/-- The steps below a directory, of all directories on the way and of the end. -/
def stages (p : Place) : Place → List Place
  | [] => []
  | step :: rest => (p ++ [step]) :: stages (p ++ [step]) rest

/-- Whether an ignore file leaves out a file or one of the directories around it. -/
def isIgnored (scopes : List IgnoreScope) (p inside : Place) : Bool :=
  (stages p inside).any fun q =>
    IgnoreScope.leavesOut scopes q (q.length < p.length + inside.length)

/-- The files at a place and below it, with the steps that lead to them. -/
def filesBelow (t : Tree) (p : Place) : List (Place × ByteArray) :=
  t.entries.entries.filterMap fun (q, e) =>
    match e with
    | .file content => if p.isPrefixOf q then some (q.drop p.length, content) else none
    | .directory => none

/-- Why a scan found nothing at its target. -/
def deadEndReason (target : String) (d : Tree.DeadEnd) : String :=
  "Directory walk failed: " ++ target ++ ": IO error for operation on " ++ target ++ ": " ++
    match d with
    | .missing => "No such file or directory (os error 2)"
    | .notDirectory => "Not a directory (os error 20)"

def sizeReason (size limit : Nat) : String :=
  "File is " ++ toString size ++ " bytes, above the " ++ toString limit ++ " byte scan limit"

/-- The files that a scan looks at, before their sizes are checked. -/
def candidates (t : Tree) (o : ScanOptions) (p : Place) : List Found :=
  let scopes := IgnoreScope.all t
  ((filesBelow t p).filter fun (inside, _) =>
    isPythonName ((p ++ inside).getLastD "") && !o.excludes inside &&
      !isIgnored scopes p inside).map fun (inside, content) => ⟨o.shown inside, content⟩

def scan (t : Tree) (o : ScanOptions) : Scan :=
  match t.lookUp o.fullPath with
  | .error d => ⟨[], [(o.target, deadEndReason o.target d)]⟩
  | .ok (p, _) =>
    let all := candidates t o p
    { found := all.filter fun f => f.content.size ≤ o.limit
      skipped := (all.filter fun f => o.limit < f.content.size).map fun f =>
        (f.path, sizeReason f.content.size o.limit) }

end AgentFlow.Files
