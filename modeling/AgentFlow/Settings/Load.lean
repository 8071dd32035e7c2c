import AgentFlow.Files.Tree
import AgentFlow.Settings.Validation
import AgentFlow.Settings.Variable
import AgentFlow.Text.Case
import AgentFlow.Toml.Printer
import AgentFlow.Toml.Reader
import AgentFlow.Wire.Settings

/-!
# Loading settings

Settings come from the defaults, the file for all projects, the file of the project and environment
variables; a later source wins.  Tables of two sources are merged member by member.

* `Value.overlay_of_not_table`: everything but a table replaces what was there.
-/

namespace AgentFlow

namespace Data.Value

mutual

/-- A value with a later one laid over it. -/
def overlay (v : Value) : Value → Value
  | .table more =>
    match v with
    | .table members => .table (overlayMembers members more)
    | _ => .table more
  | w => w

/-- Members with later ones laid over them. -/
def overlayMembers (members : List (String × Value)) :
    List (String × Value) → List (String × Value)
  | [] => members
  | (key, w) :: more =>
    let joined :=
      match members.find? (·.1 == key) with
      | some (_, v) => members.map fun m => if m.1 == key then (key, v.overlay w) else m
      | none => members ++ [(key, w)]
    overlayMembers joined more

end

theorem overlay_of_not_table (v w : Value) (h : ∀ members, w ≠ .table members) :
    v.overlay w = w := by
  cases w <;> simp_all [overlay]

end Data.Value

open Data Files

/-- What a program finds around it. -/
structure Environment where
  /-- The directory that the program runs in. -/
  root : String
  /-- The variables with their values. -/
  bindings : List (String × String)

namespace Environment

def valueOf? (env : Environment) (name : String) : Option String :=
  (env.bindings.find? (·.1 == name)).map (·.2)

/-- A path seen from the directory that the program runs in. -/
def resolve (env : Environment) (path : String) : String := joinPath env.root path

def globalDirectory? (env : Environment) : Option String :=
  match env.valueOf? "XDG_CONFIG_HOME", env.valueOf? "HOME" with
  | some directory, _ => some (joinPath directory "pocketforge")
  | none, some home => some (joinPath (joinPath home ".config") "pocketforge")
  | none, none => none

def globalFile? (env : Environment) : Option String :=
  env.globalDirectory?.map fun directory => joinPath directory "config.toml"

def projectDirectory (env : Environment) : String := joinPath env.root ".pocketforge"

def projectFile (env : Environment) : String := joinPath env.projectDirectory "config.toml"

def settings (env : Environment) : Value :=
  let settings := env.bindings.filterMap fun (name, value) => Variable.setting? name value
  settings.foldl Value.overlay (.table [])

end Environment

/-- The names of the members of tables, each behind the names of the tables that it is in. -/
def settingKeys : List (List String) :=
  match Wire.ofSettings {} with
  | .table members => members.flatMap fun (key, v) =>
    match v with
    | .table inner => inner.map fun m => [key, m.1]
    | _ => [[key]]
  | _ => []

/-- The name of the variable for the setting that keys lead to. -/
def variableFor (keys : List String) : String :=
  Variable.marker ++ "__".intercalate (keys.map Text.upper)

def variableNames : List String := "XDG_CONFIG_HOME" :: "HOME" :: settingKeys.map variableFor

namespace Settings

/-- The settings that sources state, the later ones laid over the earlier ones. -/
def ofSources (sources : List Value) : Except Fault Settings := do
  match Wire.settings? (sources.foldl Value.overlay (.table [])) with
  | none => .error (.settings .unreadable)
  | some s =>
    s.validate
    .ok s

/-- What a file states; a file that is not there states nothing. -/
def source (t : Tree) (path : String) : Except Fault Value :=
  match t.lookUp path with
  | .ok (_, .file content) =>
    match (String.fromUTF8? content).bind Toml.read? with
    | some v => .ok v
    | none => .error (.settings .unreadable)
  | _ => .ok (.table [])

def ofFile (t : Tree) (path : String) : Except Fault Settings := do
  ofSources [← source t path]

def load (t : Tree) (env : Environment) : Except Fault Settings := do
  let global ←
    match env.globalFile? with
    | some path => source t (env.resolve path)
    | none => .ok (.table [])
  let project ← source t env.projectFile
  ofSources [global, project, env.settings]

/-- The text of the settings in the format of their files. -/
def toml (s : Settings) : String := Toml.document (Wire.ofSettings s)

def defaultFile : String :=
  "# PocketForge Configuration\n" ++
    "# Project settings in .pocketforge/config.toml override global defaults.\n\n" ++
    ({} : Settings).toml

end Settings

end AgentFlow
