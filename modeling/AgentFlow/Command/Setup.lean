import AgentFlow.Command.Console
import AgentFlow.Command.Context

/-!
# Commands that set up

Commands that make the directories and files of settings and show what is in force.
-/

namespace AgentFlow.Command

open Files

def settingsText (form : OutputForm) (s : Settings) : String :=
  match form with
  | .json => Json.pretty (Wire.ofSettings s)
  | .text => s.toml

/-- Writes new settings to a file, unless one is there that is to be kept. -/
def writeDefaults (path : String) (force : Bool) : Disk Unit := do
  if force || !(← get).hasPath path then Disk.writeText path Settings.defaultFile

def makeProjectSettings (env : Environment) (force : Bool) : Disk Unit := do
  Disk.makeDirectory env.projectDirectory
  writeDefaults env.projectFile force

/-- Makes the settings for all projects; the answer is the path of their file. -/
def makeGlobalSettings (env : Environment) (force : Bool) : Disk String := do
  match env.globalDirectory?, env.globalFile? with
  | some directory, some file =>
    Disk.makeDirectory (env.resolve directory)
    writeDefaults (env.resolve file) force
    return file
  | _, _ => throw (.settings .noGlobalDirectory)

/-! ## The project -/

def isInitialized (env : Environment) (t : Tree) : Bool := t.hasPath env.projectDirectory

def welcomeLines (env : Environment) (s : Settings) : List String :=
  [doneLine ("Initialized PocketForge in " ++ env.projectDirectory),
    "",
    "Next steps:",
    "  1. pocketforge analyze \"<requirement>\"   pick a pattern",
    "  2. pocketforge generate \"<requirement>\" --name <Name>",
    "  3. pocketforge detect " ++ s.generation.workflowsDirectory]

/-- Sets up a project.  The settings for all projects are made too, if that is possible. -/
def setUp (env : Environment) (force : Bool) : Activity Unit := do
  if isInitialized env (← Activity.tree) && !force then throw (.settings .alreadyInitialized)
  Activity.onDisk (makeProjectSettings env force)
  try
    let _ ← Activity.onDisk (makeGlobalSettings env false)
  catch _ => pure ()
  let s ← loadSettings env
  if s.metrics.enabled then
    let _ ← Activity.onDisk (RunLog.openFile (env.recordFile s))
  Activity.sayAll (welcomeLines env s)

/-! ## Settings -/

def showSettings (env : Environment) (form : OutputForm) : Activity Unit := do
  Activity.say (settingsText form (← loadSettings env))

def showGlobalSettings (env : Environment) (form : OutputForm) : Activity Unit := do
  match env.globalFile? with
  | none => Activity.say "Cannot determine global config directory."
  | some path =>
    let t ← Activity.tree
    if t.hasPath (env.resolve path) then
      let s ← Activity.require (Settings.ofFile t (env.resolve path))
      Activity.sayAll ["# Global Config: " ++ path, "", settingsText form s]
    else
      Activity.sayAll
        ["No global config found.", "Run 'pocketforge config init --global' to create one."]

def markedPath (env : Environment) (t : Tree) (path : String) : String :=
  if t.hasPath (env.resolve path) then doneLine path else failedLine path

def showPaths (env : Environment) : Activity Unit := do
  let t ← Activity.tree
  let global :=
    match env.globalFile? with
    | some path => markedPath env t path
    | none => "(not available)"
  Activity.sayAll ["Configuration paths:", "", "  Global:  " ++ global,
    "  Project: " ++ markedPath env t env.projectFile]

def initializeSettings (env : Environment) (force : Bool) : Activity Unit := do
  Activity.onDisk (makeProjectSettings env force)
  Activity.sayAll [doneLine "Initialized project configuration",
    labelled "Directory" env.projectDirectory, labelled "Config" env.projectFile]

def initializeGlobalSettings (env : Environment) (force : Bool) : Activity Unit := do
  let path ← Activity.onDisk (makeGlobalSettings env force)
  Activity.sayAll [doneLine "Initialized global configuration", labelled "Config" path]

end AgentFlow.Command
