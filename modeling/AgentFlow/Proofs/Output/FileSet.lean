import AgentFlow.Proofs.Data.SortedMaps
import AgentFlow.Proofs.Output.Saving

/-!
# The files of a workflow

The files that are generated for a workflow are put into a map by their paths, where a later file
would replace an earlier one at the same path.  None does: the files of utilities lie in a directory
of their own, and the names of utilities are distinct.

* `fixedPaths`, `utilityPath`, `interfacePaths`: where the files are.
* `Valid.nodup_paths`: **no two files have the same path.**
* `Valid.filesOf`: the map has all files with the texts that were made for them, and none of them is
  refused when they are saved.
* `generate_fileSet`: **files are generated exactly for what validation accepts, and these are
  they.**
-/

namespace AgentFlow.WorkflowSpec

open Data Files
open Files.Disk (FailsInSystem)

/-! ### Paths -/

def fixedPaths : List String :=
  ["docs/design.md", "schemas/models.py", "nodes.py", "flow.py", "tests/test_nodes.py",
    "tests/test_flow.py", "tasks.md", "requirements.txt"]

def utilityPath (name : String) : String := "utils/" ++ name ++ ".py"

def interfacePaths : List String := ["main.py", "router.py", "tests/test_api.py"]

/-- Utilities with different names have their files at different paths. -/
theorem utilityPath_inj {s t : String} : utilityPath s = utilityPath t ↔ s = t := by
  rw [utilityPath, utilityPath, String.append_left_inj, String.append_right_inj]

/-- No other file lies in the directory of utilities. -/
theorem ne_utilityPath {path : String} (h : path ∈ fixedPaths ++ interfacePaths) (name : String) :
    path ≠ utilityPath name := by
  have hother : ∀ path ∈ fixedPaths ++ interfacePaths, ¬ "utils/".toList <+: path.toList := by
    decide
  rintro rfl
  refine hother _ h ?_
  rw [utilityPath, String.append_assoc, String.toList_append]
  exact List.prefix_append _ _

variable (w : WorkflowSpec)

/-- The files of a workflow in the order in which they are made. -/
def written : List (String × String) := w.fixedFiles ++ w.utilityFiles ++ w.interfaceFiles

def paths : List String :=
  fixedPaths ++ w.utilities.map (fun u => utilityPath u.name) ++
    if w.fastApi then interfacePaths else []

theorem map_written : w.written.map (·.1) = w.paths := by
  have hutilities : w.utilityFiles.map (·.1) = w.utilities.map fun u => utilityPath u.name := by
    rw [utilityFiles, List.map_map]
    rfl
  have hinterface : w.interfaceFiles.map (·.1) = if w.fastApi then interfacePaths else [] := by
    rw [interfaceFiles]
    split <;> rfl
  rw [written, List.map_append, List.map_append, hutilities, hinterface, paths]
  rfl

theorem mem_paths {path : String} : path ∈ w.paths ↔ path ∈ fixedPaths ∨
    (∃ u ∈ w.utilities, path = utilityPath u.name) ∨ w.fastApi = true ∧ path ∈ interfacePaths := by
  have hutility : path ∈ w.utilities.map (fun u => utilityPath u.name) ↔
      ∃ u ∈ w.utilities, path = utilityPath u.name := by
    rw [List.mem_map]
    simp only [eq_comm]
  rw [paths, List.mem_append, List.mem_append, hutility, or_assoc]
  cases w.fastApi <;> simp

theorem length_paths : w.paths.length = 8 + w.utilities.length + if w.fastApi then 3 else 0 := by
  rw [paths, List.length_append, List.length_append, List.length_map]
  cases w.fastApi <;> rfl

/-! ### What is generated -/

/-- The map has the files of the workflow, each at a path of its own, and saving them can only fail
in the file system. -/
structure FilesOf (files : FileSet) : Prop where
  mem_keys : ∀ path, path ∈ files.keys ↔ path ∈ fixedPaths ∨
    (∃ u ∈ w.utilities, path = utilityPath u.name) ∨ w.fastApi = true ∧ path ∈ interfacePaths
  nodup_written : (w.written.map (·.1)).Nodup
  size_eq : files.size = 8 + w.utilities.length + if w.fastApi then 3 else 0
  /-- Each file has the text that was made for it. -/
  texts : ∀ e ∈ w.written, files.get? e.1 = some e.2
  accepted : checkPaths files.keys = .ok ()
  saved : ∀ s base, FailsInSystem (w.save s base files)

variable {w}

/-- **No two files of a valid workflow have the same path.** -/
theorem Valid.nodup_paths (h : w.Valid) : w.paths.Nodup := by
  have hutilities : (w.utilities.map fun u => utilityPath u.name).Nodup := by
    have hnames := h.nodup_utilities
    rw [List.Nodup, List.pairwise_map] at hnames ⊢
    exact hnames.imp fun hne heq => hne (utilityPath_inj.mp heq)
  have hinterface : (if w.fastApi then interfacePaths else []).Nodup := by
    split <;> decide
  rw [paths, List.append_assoc, List.nodup_append, List.nodup_append]
  refine ⟨by decide, ⟨hutilities, hinterface, ?_⟩, ?_⟩
  · intro a ha b hb heq
    obtain ⟨u, -, rfl⟩ := List.mem_map.mp ha
    have hmem : b ∈ interfacePaths := by
      split at hb
      · exact hb
      · exact absurd hb List.not_mem_nil
    exact ne_utilityPath (List.mem_append_right _ hmem) u.name heq.symm
  · intro a ha b hb heq
    rcases List.mem_append.mp hb with hutility | hmem
    · obtain ⟨u, -, rfl⟩ := List.mem_map.mp hutility
      exact ne_utilityPath (List.mem_append_left _ ha) u.name heq
    · have hapart : ∀ a ∈ fixedPaths, a ∉ interfacePaths := by decide
      split at hmem
      · exact hapart a ha (heq ▸ hmem)
      · exact absurd hmem List.not_mem_nil

/-- **The map has all files of a valid workflow.** -/
theorem Valid.filesOf (h : w.Valid) : w.FilesOf w.files := by
  have hnodup : (w.written.map (·.1)).Nodup := by
    rw [map_written]
    exact h.nodup_paths
  have hperm : w.files.entries.Perm w.written := SortedMap.entries_ofList_perm hnodup
  have hkeys : w.files.keys.Perm w.paths := by
    rw [← map_written]
    exact hperm.map _
  refine ⟨?_, hnodup, ?_, ?_, ?_, h.failsInSystem_save⟩
  · intro path
    rw [hkeys.mem_iff, mem_paths]
  · rw [← length_paths, ← hkeys.length_eq, SortedMap.keys, List.length_map]
    rfl
  · intro e he
    exact (SortedMap.get?_eq_some_iff _ _ _).mpr (hperm.mem_iff.mpr he)
  · refine checkPaths_eq_ok_iff.mpr fun path hpath => ?_
    exact isContained_iff.mp (h.contained_files path hpath)

theorem generate_eq_ok_iff {files : FileSet} :
    w.generate = .ok files ↔ w.validate = .ok () ∧ files = w.files := by
  rw [generate, check_bind_eq_ok_iff, Except.ok.injEq, eq_comm (a := w.files)]

theorem generate_eq_error_iff {f : SpecFault} :
    w.generate = .error f ↔ w.validate = .error f := by
  rw [generate]
  cases w.validate with
  | error g => exact (Except.error.injEq g f).to_iff.trans (Except.error.injEq g f).to_iff.symm
  | ok u => exact iff_of_false nofun nofun

/-- **Files are generated exactly for the specifications that validation accepts, with its fault for
all others.  These are the files of the workflow, and all of them may be saved.** -/
theorem generate_fileSet (w : WorkflowSpec) :
    ((∃ files, w.generate = .ok files) ↔ w.validate = .ok ()) ∧
      (∀ f, w.generate = .error f ↔ w.validate = .error f) ∧
      ∀ files, w.generate = .ok files → w.FilesOf files := by
  refine ⟨?_, fun f => generate_eq_error_iff, ?_⟩
  · constructor
    · rintro ⟨files, hfiles⟩
      exact (generate_eq_ok_iff.mp hfiles).1
    · intro hvalid
      exact ⟨w.files, generate_eq_ok_iff.mpr ⟨hvalid, rfl⟩⟩
  · intro files hfiles
    obtain ⟨hvalid, rfl⟩ := generate_eq_ok_iff.mp hfiles
    exact (validate_eq_ok_iff.mp hvalid).filesOf

/-- A workflow with utilities that are named as files of the interface are. -/
def namesakes : WorkflowSpec :=
  { reviewLoop with
    utilities := [⟨"main", "", [], "str"⟩, ⟨"router", "", [⟨"path", "str"⟩], "Any"⟩] }

theorem generate_fileSet_namesakes :
    ∃ files, namesakes.generate = .ok files ∧ files.size = 13 ∧ "main.py" ∈ files.keys ∧
      "utils/main.py" ∈ files.keys ∧ checkPaths files.keys = .ok () := by
  obtain ⟨hok, -, hfiles⟩ := generate_fileSet namesakes
  obtain ⟨files, hgenerate⟩ := hok.mpr rfl
  have h := hfiles files hgenerate
  refine ⟨files, hgenerate, h.size_eq, (h.mem_keys _).mpr ?_, (h.mem_keys _).mpr ?_, h.accepted⟩
  · exact .inr (.inr ⟨rfl, by decide⟩)
  · exact .inr (.inl ⟨⟨"main", "", [], "str"⟩, List.mem_cons_self, rfl⟩)

end AgentFlow.WorkflowSpec
