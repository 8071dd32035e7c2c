import AgentFlow.Files.Tree
import AgentFlow.Output.Files

/-!
# Saving a workflow

The files of a workflow are written below its own directory.  The specification and all paths are
checked before anything is made or written.
-/

namespace AgentFlow

open Data Files

/-- Refuses paths that leave the directory of the workflow. -/
def checkPaths : List String → Except Fault Unit
  | [] => .ok ()
  | path :: rest => if isContained path then checkPaths rest else .error (.escapingPath path)

/-- Writes files below a directory, making the directories that they lie in. -/
def writeBelow (directory : String) : List (String × String) → Disk Unit
  | [] => pure ()
  | (path, text) :: rest => do
    Disk.makeParent (joinPath directory path)
    Disk.writeText (joinPath directory path) text
    writeBelow directory rest

/-- Saves files of a workflow.  A directory that does not start at the root is seen from `base`; the
answer is the directory as the settings state it. -/
def WorkflowSpec.save (w : WorkflowSpec) (s : GenerationSettings) (base : String)
    (files : FileSet) : Disk String := do
  ExceptT.mk (pure (w.validate.mapError .spec))
  ExceptT.mk (pure (checkPaths files.keys))
  let shown := w.outputDirectory s
  Disk.makeDirectory (joinPath base shown)
  writeBelow (joinPath base shown) files.entries
  pure shown

end AgentFlow
