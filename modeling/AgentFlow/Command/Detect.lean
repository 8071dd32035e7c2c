import AgentFlow.Command.Console
import AgentFlow.Command.Context
import AgentFlow.Lint.Report.Printer
import AgentFlow.Lint.Scan

/-!
# The command that detects antipatterns

A file or a directory is checked, and the report is printed or written to a file.  The command ends
with the status of the report.
-/

namespace AgentFlow.Command

open Files

inductive ReportForm where
  | screen
  | json
  | document
  deriving DecidableEq

def ReportForm.render (form : ReportForm) (r : Lint.Report) : String :=
  match form with
  | screen => r.screen
  | json => r.json
  | document => r.document

structure DetectOptions where
  path : String
  form : ReportForm := .screen
  output : Option String := none
  /-- Patterns of paths to leave out, besides those in the settings. -/
  exclude : List String := []

def writeWithParents (path text : String) : Disk Unit := do
  Disk.makeParent path
  Disk.writeText path text

def reportLine (r : Lint.Report) (path : String) : String :=
  infoLine (toString r.violations.length ++ " violation(s) in " ++ toString r.filesScanned ++
    " file(s); report written to " ++ path)

/-- Checks a file or a directory; the answer is the status to end with. -/
def detect (env : Environment) (o : DetectOptions) : Activity Nat := do
  let c ← Context.load env
  let s := { c.settings.detection with exclude := c.settings.detection.exclude ++ o.exclude }
  let r := Lint.detectPath (← Activity.tree) s env.root (env.resolve o.path)
  Activity.note c.record (.ofReport r)
  match o.output with
  | some path => do
    Activity.onDisk (writeWithParents (env.resolve path) (o.form.render r))
    Activity.say (reportLine r (env.resolve path))
  | none => Activity.print (o.form.render r)
  return r.exitCode

end AgentFlow.Command
