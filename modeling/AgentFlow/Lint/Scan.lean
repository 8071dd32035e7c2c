import AgentFlow.Files.Scan
import AgentFlow.Lint.Detect
import AgentFlow.Lint.Report

/-!
# Checking files and directories

The report over a file or over all Python files below a directory.  A file that cannot be checked
becomes a finding of its own instead of an error.
-/

namespace AgentFlow.Lint

open Files

/-- A finding about a whole file that cannot be checked. -/
def unchecked (path message suggestion : String) : Violation :=
  .of .analysisError path 0 message suggestion

def detectFile (s : DetectionSettings) (f : Found) : List Violation :=
  match String.fromUTF8? f.content with
  | some source => detect f.path s source
  | none => [unchecked f.path "File is not valid UTF-8" "Save the file as UTF-8"]

/-- The patterns of paths to leave out that can be read. -/
def excludeGlobs (s : DetectionSettings) : List Glob :=
  s.exclude.filterMap fun pattern => (Glob.parse? pattern).toOption

def detectPath (t : Tree) (s : DetectionSettings) (base target : String) : Report :=
  match t.lookUp (joinPath base target) with
  | .error _ =>
    ⟨target, 0, [unchecked target "Path does not exist" "Pass an existing file or directory"]⟩
  | .ok (_, .file content) => ⟨target, 1, detectFile s ⟨target, content⟩⟩
  | .ok (_, .directory) =>
    let r := scan t { base := base, target := target, exclude := excludeGlobs s }
    ⟨target, r.found.length,
      r.skipped.map (fun (path, reason) =>
        unchecked path reason "Split the file or exclude it explicitly") ++
        r.found.flatMap (detectFile s)⟩

end AgentFlow.Lint
