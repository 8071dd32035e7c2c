import AgentFlow.Files.Tree
import AgentFlow.Json.Printer
import AgentFlow.Json.Reader
import AgentFlow.Runs.Log
import AgentFlow.Wire.Runs

/-!
# The file of runs

The record of runs is kept in a file with one run on a line.  An empty file is an empty record.

* `RunLog.text_append`: recording another run only adds to the file.
-/

namespace AgentFlow

open Data Files

namespace RunLog

def text (log : RunLog) : String := Text.unlines (log.map fun e => Json.compact (Wire.ofRunEntry e))

def read? (s : String) : Option RunLog :=
  (Text.lines s).mapM fun line => (Json.read? line).bind Wire.runEntry?

theorem text_append (log more : RunLog) : text (log ++ more) = text log ++ text more := by
  simp [text, Text.unlines]

-- A new file can be read at once.
example : read? "" = some [] := rfl

end RunLog

/-! ## Opening -/

def cannotUse (reason : String) : Fault :=
  .storage ("Failed to create connection pool: timed out waiting for connection: " ++ reason)

def noRunFile (path : String) : Fault := cannotUse ("unable to open database file: " ++ path)

def notRuns : Fault := cannotUse "file is not a database"

def RunLog.ofFile (t : Tree) (path : String) : Except Fault RunLog :=
  match t.lookUp path with
  | .ok (_, .file content) =>
    match (String.fromUTF8? content).bind RunLog.read? with
    | some log => .ok log
    | none => .error notRuns
  | _ => .error (noRunFile path)

/-- Makes the file of a record, if there is none, and reads the record. -/
def RunLog.openFile (path : String) : Disk RunLog := do
  Disk.makeParent path
  unless (← get).hasPath path do
    Disk.writeText path "" <|> throw (noRunFile path)
  ExceptT.mk (pure (RunLog.ofFile (← get) path))

/-- The tree with a run added to the record at a path.  A record that cannot be used stays as it
is. -/
def RunLog.recordIn (t : Tree) (path : String) (run : Run) (time : String) (duration : Nat) :
    Tree :=
  match RunLog.ofFile t path with
  | .error _ => t
  | .ok log => ((Disk.writeText path (log.record run time duration).text).run t).2

end AgentFlow
