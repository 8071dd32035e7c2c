import AgentFlow.Command.Console
import AgentFlow.Command.Context
import AgentFlow.Flowchart.Check
import AgentFlow.Json.Printer
import AgentFlow.Json.Reader
import AgentFlow.Lint.Detect
import AgentFlow.Output.Baseline
import AgentFlow.Output.Plan
import AgentFlow.Output.Save
import AgentFlow.Wire.Baseline
import AgentFlow.Workflow.SpecFile

/-!
# The command that generates workflows

A workflow is generated from a requirement or from a file with its specification.  Then, as far as
the user asks for it, the files are checked and compared with a baseline; at last they are saved, or
only listed.
-/

namespace AgentFlow.Command

open Data Files

structure GenerateOptions where
  requirement : Option String := none
  name : Option String := none
  /-- A file with the specification, instead of a requirement and a name. -/
  specFile : Option String := none
  /-- The directory for workflows, instead of the one in the settings. -/
  directory : Option String := none
  hybrid : Bool := false
  withoutFastApi : Bool := false
  dryRun : Bool := false
  check : Bool := false
  baseline : Option String := none
  updateBaseline : Bool := false

namespace GenerateOptions

variable (o : GenerateOptions)

/-- The settings with what the user states instead. -/
def settings (env : Environment) (s : Settings) : Settings :=
  { s with
    generation := {
      workflowsDirectory := env.resolve (o.directory.getD s.generation.workflowsDirectory)
      fastApi := s.generation.fastApi && !o.withoutFastApi } }

/-- Whether the strongest combination of patterns is to be composed. -/
def promotes (s : Settings) : Bool := o.hybrid || s.analysis.hybridPromotion

def name? : Except Fault String :=
  match o.name with
  | some name => if Text.hasInk name then .ok (Text.trim name) else .error (.spec .blankName)
  | none => .error (.spec .blankName)

def specOfFile (path : String) : Activity WorkflowSpec := do
  let w ← Activity.require (readSpecFile (← Activity.tree) path)
  return { w with fastApi := w.fastApi && !o.withoutFastApi }

/-- The specification that is recommended for the requirement.  The analysis is recorded even if no
workflow can be made of it. -/
def specOfRequirement (c : Context) : Activity WorkflowSpec := do
  let text ← Activity.require (requireText (o.requirement.getD ""))
  let name ← Activity.require o.name?
  let r ← Activity.require ((c.settings.recommender none).recommend text)
  Activity.note c.record (.ofRecommendation r)
  Activity.require
    ((r.workflow c.settings.generation (o.promotes c.settings) name text).mapError .spec)

/-- The specification to generate from. -/
def spec (env : Environment) (c : Context) : Activity WorkflowSpec :=
  match o.specFile with
  | some path => o.specOfFile (env.resolve path)
  | none => o.specOfRequirement c

end GenerateOptions

/-! ## Checks -/

def designPath : String := "docs/design.md"

/-- The findings in the generated code, in the order of the paths. -/
def findingsIn (s : DetectionSettings) (files : FileSet) : List Lint.Violation :=
  (files.entries.filter fun f => Text.endsWith f.1 ".py").flatMap fun f => Lint.detect f.1 s f.2

def designIssues (files : FileSet) : List Flowchart.Finding :=
  match files.get? designPath with
  | some design => (Flowchart.Validation.ofDocument design).issues.map (·.finding)
  | none => []

/-- Checks the generated code and the diagrams of the design document. -/
def checkFiles (s : DetectionSettings) (files : FileSet) : Activity Unit := do
  let findings := findingsIn s files
  Activity.sayAll (findings.map findingLine)
  let blocking := findings.countP (·.severity.isBlocking)
  if blocking > 0 then throw (.selfCheck blocking)
  let issues := designIssues files
  if !issues.isEmpty then
    for issue in issues do
      Activity.complain
        (failedLine ("design.md:" ++ toString issue.line ++ " " ++ issue.description))
    throw (.spec .designDiagram)
  Activity.say (doneLine "Generated code passed antipattern and diagram checks")

/-! ## Baselines -/

def saveBaseline (path : String) (files : FileSet) : Disk Unit := do
  Disk.makeParent path
  Disk.writeText path (Json.pretty (Wire.ofBaseline (.capture files)))

def baselineOfFile (t : Tree) (path : String) : Except Fault Baseline := do
  let text ← t.readText? path
  match (Json.read? text).bind Wire.baseline? with
  | some b => .ok b
  | none => .error (.unreadable .json)

def differenceLines (d : BaselineDiff) : List String :=
  d.added.map (fun p => warningLine ("added: " ++ p)) ++
    d.removed.map (fun p => warningLine ("removed: " ++ p)) ++
    d.changed.map (fun p => warningLine ("changed: " ++ p))

/-- Compares files with the baseline at a path.  The baseline is written instead if there is none
yet or if that is wanted. -/
def compareWithBaseline (path : String) (update : Bool) (files : FileSet) : Activity Unit := do
  if update || !(← Activity.tree).hasPath path then
    Activity.onDisk (saveBaseline path files)
    Activity.say (infoLine ("Baseline written to " ++ path))
  else
    let d := (← Activity.require (baselineOfFile (← Activity.tree) path)).compare files
    if d.isClean then Activity.say (doneLine "Output matches baseline")
    else
      Activity.sayAll (differenceLines d)
      throw (.spec (.baselineDiffers path d.added.length d.removed.length d.changed.length))

/-! ## Generating -/

def listingLines (w : WorkflowSpec) (files : FileSet) : List String :=
  title (w.name ++ " (" ++ w.pattern.name ++ ") - dry run") ++
    files.entries.map fun (path, content) => sizeLine path content

def savedLine (w : WorkflowSpec) (files : FileSet) (directory : String) : String :=
  doneLine ("Generated " ++ toString files.size ++ " files for '" ++ w.name ++ "' (" ++
    w.pattern.name ++ ") in " ++ directory)

def generate (env : Environment) (o : GenerateOptions) : Activity Unit := do
  let loaded ← Context.load env
  let c := { loaded with settings := o.settings env loaded.settings }
  let w ← o.spec env c
  let files ← Activity.require (w.generate.mapError .spec)
  if o.check then checkFiles c.settings.detection files
  match o.baseline with
  | some path => compareWithBaseline (env.resolve path) o.updateBaseline files
  | none => pure ()
  if o.dryRun then Activity.sayAll (listingLines w files)
  else
    let directory ← Activity.onDisk (w.save c.settings.generation env.root files)
    Activity.say (savedLine w files directory)
  Activity.note c.record (.ofFileCount files.size)

end AgentFlow.Command
