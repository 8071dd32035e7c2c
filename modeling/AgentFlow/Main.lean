import AgentFlow.Command.Arguments
import AgentFlow.Runs.Calendar
import AgentFlow.Session.Identifier
import Std.Time.DateTime.Timestamp

/-!
# The program

The outer layer: it reads the directories that a request can see into a tree, does what is asked for
on the tree, prints what was said, and writes the changes of the tree back.
-/

namespace AgentFlow.Program

open Command Files

def outside (p : Place) : IO.FS.DirEntry := ⟨"/" ++ "/".intercalate p.dropLast, p.getLastD ""⟩

/-- The tree with what is at a place outside and below it.  Links are not followed. -/
partial def readBelow (t : Tree) (p : Place) : IO Tree := do
  let path := (outside p).path
  match ← path.symlinkMetadata.toBaseIO with
  | .error _ => return t
  | .ok data =>
    match data.type with
    | .dir =>
      let found ← path.readDir
      found.foldlM (fun t e => readBelow t (p ++ [e.fileName])) (t.put p .directory)
    | .file =>
      match ← (IO.FS.readBinFile path).toBaseIO with
      | .ok content => return t.put p (.file content)
      | .error _ => return t
    | _ => return t

def readAbove (t : Tree) (p : Place) : IO Tree :=
  ((List.range (p.length + 1)).map p.take).foldlM (fun t q => do
    if q.isEmpty then return t
    match ← (outside q).path.metadata.toBaseIO with
    | .ok data => return if data.type matches .dir then t.put q .directory else t
    | .error _ => return t) t

/-- The tree with everything at and below the ends of paths, unless it is in the tree already. -/
def readPaths (t : Tree) (paths : List String) : IO Tree :=
  paths.foldlM (fun t path => do
    let p := Tree.placeOf path
    if (t.get? p).isSome && !p.isEmpty then return t
    readBelow (← readAbove t p.dropLast) p) t

def writeEntry (before : Tree) (p : Place) (e : Entry) : IO Unit := do
  match e, before.get? p with
  | .directory, none => IO.FS.createDirAll (outside p).path
  | .file new, some (.file old) =>
    if new == old then pure () else IO.FS.writeBinFile (outside p).path new
  | .file new, none => IO.FS.writeBinFile (outside p).path new
  | _, _ => pure ()

def writeChanges (before after : Tree) : IO Unit :=
  after.entries.entries.forM fun (p, e) => writeEntry before p e

def readEnvironment : IO Environment := do
  let root ← IO.currentDir
  let bindings ← variableNames.filterMapM fun name => do
    return (← IO.getEnv name).map fun value => (name, value)
  return ⟨root.toString, bindings⟩

/-- The tree that a request can see: the working directory, the directory of the settings for all
projects, and what the request and the settings name. -/
def visibleTree (env : Environment) (r : Request) : IO Tree := do
  let t ← readPaths {} (env.root :: (env.globalDirectory?.map env.resolve).toList)
  let named :=
    match Settings.load t env with
    | .ok s => [env.recordFile s, env.resolve s.generation.workflowsDirectory]
    | .error _ => []
  readPaths t (named ++ r.paths.map env.resolve)

def timeNow : IO String := do
  return Runs.timeText (← Std.Time.Timestamp.now).toSecondsSinceUnixEpoch.val.toNat

/-- Does what is asked for; the answer is the status of the program. -/
def perform (r : Request) : IO UInt32 := do
  let env ← readEnvironment
  let before ← visibleTree env r
  let bytes ← IO.getRandomBytes 16
  let start ← IO.monoMsNow
  let outcome := r.perform env ⟨← timeNow, Session.identifier bytes.toList⟩ before
  IO.print outcome.workspace.output
  IO.eprint outcome.workspace.complaints
  let duration := (← IO.monoMsNow) - start
  writeChanges before (outcome.workspace.settle (← timeNow) duration)
  match outcome.result with
  | .ok status => return UInt32.ofNat status
  | .error fault =>
    IO.eprintln ("Error: " ++ fault.message?.getD "the file system or a data format refuses")
    return 1

end AgentFlow.Program

open AgentFlow Command Program in
/-- Reads the arguments and does what they ask for. -/
def main (arguments : List String) : IO UInt32 := do
  match Invocation.read arguments with
  | .error fault =>
    IO.eprintln ("error: " ++ fault.message)
    return 2
  | .ok .help =>
    IO.print (Text.unlines usageLines)
    return 0
  | .ok .version =>
    IO.println versionLine
    return 0
  | .ok (.request r) => perform r
