import AgentFlow.Output.Save
import AgentFlow.Proofs.Files.Changes
import AgentFlow.Proofs.Files.Confined
import AgentFlow.Proofs.Workflow.Names
import AgentFlow.Proofs.Workflow.Valid

/-!
# Where a workflow is saved

The specification and all paths are checked before anything is written.  The name of a valid
workflow gives the name of a directory, however it is written, so that all the work is done in one
directory.

* `WorkflowSpec.Valid.components_directoryName`: **the directory of a workflow is a single name.**
* `confined_writeBelow`, `writeBelow_files`: files are written below the directory, each of them.
* `WorkflowSpec.save_staysInside`: **a workflow is refused as a whole, or saved in its directory.**

The files that are generated for a valid workflow have paths that stay in its directory, so nothing
but the file system can refuse to save them.

* `WorkflowSpec.Valid.contained_files`: **the files of a valid workflow stay in its directory.**
* `WorkflowSpec.Valid.failsInSystem_save`: **only the file system refuses to save them.**
* `WorkflowSpec.Valid.changed_save`: **saving writes these files only**, as far as it goes.
-/

namespace AgentFlow

open Data Files Text
open Files.Disk (FailsInSystem after perform plainSteps)
open Files.Tree (Changed Confined placeOf way wayTo)

/-! ### The directory of a workflow -/

theorem Text.lowerChar_ne_nil (c : Char) : lowerChar c ≠ [] := by
  unfold lowerChar
  split
  · exact List.cons_ne_nil _ _
  · split <;> exact List.cons_ne_nil _ _

theorem Text.lower_ne_empty {s : String} (h : s ≠ "") : lower s ≠ "" := by
  rw [lower]
  cases hs : s.toList with
  | nil => exact absurd (String.toList_eq_nil_iff.mp hs) h
  | cons c rest =>
    intro hempty
    have hnil := congrArg String.toList hempty
    rw [String.toList_ofList, String.toList_empty, lowerAfter, List.append_eq_nil_iff] at hnil
    have hhead := hnil.1
    split at hhead
    · exact absurd hhead (List.cons_ne_nil _ _)
    · exact absurd hhead (lowerChar_ne_nil c)

namespace WorkflowSpec

variable {w : WorkflowSpec}

/-- **The directory of a valid workflow is a single name.** -/
theorem Valid.components_directoryName (h : w.Valid) :
    components w.directoryName = [.normal w.directoryName] := by
  obtain ⟨hdot, hdots, hseparator⟩ := isPlainDirectory_iff.mp h.plain
  have hne : w.directoryName ≠ "" := by
    refine lower_ne_empty ?_
    intro hempty
    obtain ⟨c, hc, hink⟩ := List.any_eq_true.mp h.named
    have hmem : c ∈ w.name.toList.filter fun c => !isBlank c := List.mem_filter.mpr ⟨hc, hink⟩
    rw [← String.toList_ofList (l := w.name.toList.filter fun c => !isBlank c), hempty] at hmem
    exact absurd hmem List.not_mem_nil
  have hslash : '/' ∉ w.directoryName.toList := fun hmem => (hseparator _ hmem).1 rfl
  have hroot : startsWith w.directoryName "/" = false := by
    rw [startsWith, ← Bool.not_eq_true, List.isPrefixOf_iff_prefix]
    exact fun hstart => hslash (hstart.subset List.mem_cons_self)
  rw [components, hroot, steps_of_no_slash hslash hne]
  simp [Component.ofStep, hdot, hdots]

end WorkflowSpec

/-! ### Checks before the first change -/

theorem checkPaths_eq_ok_iff {paths : List String} :
    checkPaths paths = .ok () ↔ ∀ path ∈ paths, Contained path := by
  induction paths with
  | nil => simp [checkPaths]
  | cons path rest ih =>
    rw [checkPaths, List.forall_mem_cons, ← isContained_iff]
    split
    · next h => simp [h, ih]
    · next h => simp [h]

theorem perform_check {α β : Type} (check : Except Fault α) (more : α → Disk β) (t : Tree) :
    perform (ExceptT.mk (pure check) >>= more) t =
      match check with
      | .ok a => perform (more a) t
      | .error f => (.error f, t) := by
  cases check <;> rfl

/-! ### Writing files -/

section WriteBelow

variable (directory : String) {files : List (String × String)}
  (h : ∀ e ∈ files, isContained e.1 = true)

include h

/-- **Files are written below the directory.** -/
theorem confined_writeBelow (t : Tree) :
    Confined (placeOf directory) (way [] (plainSteps directory)) t
      (after (writeBelow directory files) t) := by
  induction files generalizing t with
  | nil => exact .refl t
  | cons e rest ih =>
    obtain ⟨path, text⟩ := e
    rw [List.forall_mem_cons] at h
    refine Disk.after_bind .trans (fun t => Disk.confined_makeParent h.1 t) (fun _ => ?_) t
    exact Disk.after_bind .trans (fun t => Disk.confined_writeText h.1 text t) fun _ => ih h.2

/-- If all goes well, there is a file at each path. -/
theorem writeBelow_files {t t' : Tree}
    (hrun : perform (writeBelow directory files) t = (.ok (), t')) :
    ∀ e ∈ files, ∃ c, t'.get? (placeOf directory ++ plainSteps e.1) = some (.file c) := by
  induction files generalizing t with
  | nil => exact fun _ he => absurd he List.not_mem_nil
  | cons e rest ih =>
    obtain ⟨path, text⟩ := e
    rw [List.forall_mem_cons] at h ⊢
    obtain ⟨_, t₁, -, hrun⟩ := Disk.perform_bind_eq_ok_iff.mp hrun
    obtain ⟨_, t₂, hwritten, hrun⟩ := Disk.perform_bind_eq_ok_iff.mp hrun
    obtain ⟨rfl, hne⟩ := Disk.write_eq_ok hwritten
    refine ⟨?_, ih h.2 hrun⟩
    -- The file is there once it is written, and later writes leave a file in its place.
    have hkept := confined_writeBelow directory h.2
      (t₁.put (placeOf (joinPath directory path)) (.file text.toUTF8))
    rw [after, hrun] at hkept
    rw [← placeOf_joinPath h.1]
    exact hkept.files _ _ (t₁.get?_put_self hne _)

end WriteBelow

namespace WorkflowSpec

variable (w : WorkflowSpec) (s : GenerationSettings) (base : String) (files : FileSet)

def directoryPath : String := joinPath base (joinPath s.workflowsDirectory w.directoryName)

theorem perform_save_of_refused (t : Tree)
    (h : ¬ (w.Valid ∧ ∀ path ∈ files.keys, Contained path)) :
    ∃ f, perform (w.save s base files) t = (.error f, t) := by
  rw [save, perform_check]
  cases hvalid : w.validate with
  | error f => exact ⟨.spec f, rfl⟩
  | ok u =>
    change ∃ f, perform (ExceptT.mk (pure (checkPaths files.keys)) >>= _) t = (.error f, t)
    rw [perform_check]
    cases hpaths : checkPaths files.keys with
    | error f => exact ⟨f, rfl⟩
    | ok u' => exact absurd ⟨validate_eq_ok_iff.mp hvalid, checkPaths_eq_ok_iff.mp hpaths⟩ h

theorem perform_save_of_valid (hvalid : w.Valid) (hpaths : ∀ path ∈ files.keys, Contained path)
    (t : Tree) :
    perform (w.save s base files) t = perform (do
      Disk.makeDirectory (w.directoryPath s base)
      writeBelow (w.directoryPath s base) files.entries
      pure (w.outputDirectory s)) t := by
  rw [save, perform_check, validate_eq_ok_iff.mpr hvalid]
  change perform (ExceptT.mk (pure (checkPaths files.keys)) >>= _) t = _
  rw [perform_check, checkPaths_eq_ok_iff.mpr hpaths]
  rfl

/-- **A workflow is refused as a whole, or saved in its directory.**  If the specification is not
valid or a path leads elsewhere, nothing is changed.  Otherwise the directory is a single name below
that of all workflows, and all changes are confined to it, whether the work comes to its end or
stops at a fault; at its end every file is there. -/
theorem save_staysInside (t : Tree) :
    (¬ (w.Valid ∧ ∀ path ∈ files.keys, Contained path) →
      ∃ f, perform (w.save s base files) t = (.error f, t)) ∧
    (w.Valid → (∀ path ∈ files.keys, Contained path) →
      components w.directoryName = [.normal w.directoryName] ∧
      Confined (placeOf (w.directoryPath s base)) (way [] (plainSteps (w.directoryPath s base))) t
        (after (w.save s base files) t) ∧
      ∀ shown t', perform (w.save s base files) t = (.ok shown, t') →
        ∀ path ∈ files.keys, ∃ c,
          t'.get? (placeOf (w.directoryPath s base) ++ plainSteps path) = some (.file c)) := by
  refine ⟨w.perform_save_of_refused s base files t, ?_⟩
  intro hvalid hpaths
  have hcontained : ∀ e ∈ files.entries, isContained e.1 = true := fun e he =>
    isContained_iff.mpr (hpaths _ (List.mem_map_of_mem he))
  refine ⟨hvalid.components_directoryName, ?_, ?_⟩
  · rw [after, w.perform_save_of_valid s base files hvalid hpaths]
    refine Disk.after_bind .trans (fun t => Disk.confined_makeDirectory _ t) (fun _ => ?_) t
    exact Disk.after_bind .trans (fun t => confined_writeBelow _ hcontained t)
      fun _ t => .refl t
  · intro shown t' hrun path hpath
    obtain ⟨e, he, rfl⟩ := List.mem_map.mp hpath
    rw [w.perform_save_of_valid s base files hvalid hpaths] at hrun
    obtain ⟨_, t₁, -, hrun⟩ := Disk.perform_bind_eq_ok_iff.mp hrun
    obtain ⟨_, t₂, hwritten, hrun⟩ := Disk.perform_bind_eq_ok_iff.mp hrun
    obtain rfl : t₂ = t' := congrArg Prod.snd hrun
    exact writeBelow_files _ hcontained hwritten e he

/-- A path that leads away is refused, and a path with a dot stays in the directory. -/
theorem save_staysInside_reviewLoop :
    (∃ f, perform (reviewLoop.save {} "/home" (.ofList [("docs/../../flow.py", "")])) {} =
        (.error f, {})) ∧
      ∃ t', perform (reviewLoop.save {} "/home" (.ofList [("./flow.py", "pass")])) {} =
          (.ok "workflows/reviewloop", t') ∧
        Confined ["home", "workflows", "reviewloop"]
          [["home"], ["home", "workflows"], ["home", "workflows", "reviewloop"]] {} t' ∧
        ∃ c, t'.get? ["home", "workflows", "reviewloop", "flow.py"] = some (.file c) := by
  constructor
  · refine (reviewLoop.save_staysInside {} "/home" _ {}).1 ?_
    rintro ⟨-, hpaths⟩
    have hpath := isContained_iff.mpr (hpaths "docs/../../flow.py" List.mem_cons_self)
    exact absurd hpath (by decide)
  · have hvalid : reviewLoop.Valid := validate_eq_ok_iff.mp rfl
    have hpaths : ∀ path ∈ (SortedMap.ofList [("./flow.py", "pass")]).keys, Contained path := by
      intro path hpath
      rw [List.mem_singleton.mp hpath]
      exact isContained_iff.mp (by decide)
    have hplace : placeOf (reviewLoop.directoryPath {} "/home") =
        ["home", "workflows", "reviewloop"] := by decide +kernel
    have hway : way [] (plainSteps (reviewLoop.directoryPath {} "/home")) =
        [["home"], ["home", "workflows"], ["home", "workflows", "reviewloop"]] := by decide +kernel
    obtain ⟨-, hconfined, hfiles⟩ :=
      (reviewLoop.save_staysInside {} "/home" (.ofList [("./flow.py", "pass")]) {}).2 hvalid hpaths
    rw [hplace, hway] at hconfined
    rw [hplace] at hfiles
    have hanswer : (perform (reviewLoop.save {} "/home" (.ofList [("./flow.py", "pass")]))
        {}).1.toOption = some "workflows/reviewloop" := by decide +kernel
    rw [after] at hconfined
    rcases hrun : perform (reviewLoop.save {} "/home" (.ofList [("./flow.py", "pass")])) {} with
      ⟨f | shown, t'⟩ <;> rw [hrun] at hanswer hconfined
    · exact absurd hanswer.symm (Option.some_ne_none _)
    · obtain rfl := Option.some.inj hanswer
      have hfile := hfiles _ _ hrun "./flow.py" List.mem_cons_self
      rw [show plainSteps "./flow.py" = ["flow.py"] by decide] at hfile
      exact ⟨t', rfl, hconfined, hfile⟩

end WorkflowSpec

/-! ### The files of a valid workflow -/

theorem isContained_utilityPath {name : String} (h : isFunctionName name = true) :
    isContained ("utils/" ++ name ++ ".py") = true := by
  rw [isFunctionName, Bool.and_eq_true] at h
  have hchars := (chars_of_isClassName h.1).2
  have hslash : '/' ∉ (name ++ ".py").toList := by
    rw [String.toList_append, List.mem_append, not_or]
    exact ⟨fun hmem => ne_of_isNameChar (hchars _ hmem) (by decide) rfl, by decide⟩
  have hne : name ++ ".py" ≠ "" := by simp
  have hsteps : steps ("utils/" ++ name ++ ".py") = ["utils", name ++ ".py"] := by
    rw [show "utils/" ++ name ++ ".py" = "utils" ++ "/" ++ (name ++ ".py") by
      simp [String.append_assoc], steps_append_slash, steps_of_no_slash hslash hne]
    rfl
  have hparent : ".." ≠ name ++ ".py" := by
    intro heq
    have hlast := congrArg (fun s => s.toList.getLast?) heq
    simp at hlast
  simp [isContained, hsteps, hparent, startsWith, List.isPrefixOf]

/-- **The files of a valid workflow stay in its directory.** -/
theorem WorkflowSpec.Valid.contained_files {w : WorkflowSpec} (h : w.Valid) :
    ∀ path ∈ w.files.keys, isContained path = true := by
  intro path hpath
  rw [files, SortedMap.mem_keys_ofList, List.map_append, List.map_append, List.mem_append,
    List.mem_append] at hpath
  rcases hpath with (hfixed | hutility) | hinterface
  · revert path
    change ∀ path ∈ ["docs/design.md", "schemas/models.py", "nodes.py", "flow.py",
      "tests/test_nodes.py", "tests/test_flow.py", "tasks.md", "requirements.txt"], _
    decide
  · rw [utilityFiles, List.map_map] at hutility
    obtain ⟨u, hu, rfl⟩ := List.mem_map.mp hutility
    exact isContained_utilityPath (h.utilities u hu).name
  · rw [interfaceFiles] at hinterface
    split at hinterface
    · revert path
      change ∀ path ∈ ["main.py", "router.py", "tests/test_api.py"], _
      decide
    · exact absurd hinterface List.not_mem_nil

theorem failsInSystem_writeBelow (directory : String) (files : List (String × String)) :
    FailsInSystem (writeBelow directory files) := by
  induction files with
  | nil => exact Disk.failsInSystem_pure ()
  | cons e rest ih =>
    obtain ⟨path, text⟩ := e
    refine Disk.failsInSystem_bind (Disk.failsInSystem_makeSteps _ _) fun _ => ?_
    exact Disk.failsInSystem_bind (Disk.failsInSystem_writeText _ _) fun _ => ih

theorem changed_writeBelow (directory : String) (files : List (String × String)) (t : Tree) :
    Changed (files.map fun e => placeOf (joinPath directory e.1))
      (files.flatMap fun e => wayTo (joinPath directory e.1)) t
      (after (writeBelow directory files) t) := by
  induction files generalizing t with
  | nil => exact .refl t
  | cons e rest ih =>
    obtain ⟨path, text⟩ := e
    rw [List.map_cons, List.flatMap_cons]
    refine Disk.after_bind .trans (fun t => ?_) (fun _ => ?_) t
    · exact (Disk.changed_makeParent (joinPath directory path) t).mono (List.nil_subset _)
        (List.subset_append_left _ _)
    · refine Disk.after_bind .trans (fun t => ?_) (fun _ t => ?_)
      · exact (Disk.changed_writeText (joinPath directory path) text t).mono
          (List.cons_subset_cons _ (List.nil_subset _)) (List.nil_subset _)
      · exact (ih t).mono (List.subset_cons_self _ _) (List.subset_append_right _ _)

namespace WorkflowSpec

variable (w : WorkflowSpec) (s : GenerationSettings) (base : String)

def filePlaces : List Place :=
  w.files.keys.map fun path => placeOf (joinPath (w.directoryPath s base) path)

/-- The directory of a workflow and those of its files, with those that they lie in. -/
def fileWays : List Place :=
  way [] (plainSteps (w.directoryPath s base)) ++
    w.files.keys.flatMap fun path => wayTo (joinPath (w.directoryPath s base) path)

end WorkflowSpec

namespace WorkflowSpec.Valid

variable {w : WorkflowSpec} (h : w.Valid) (s : GenerationSettings) (base : String)

include h

theorem perform_save (t : Tree) :
    perform (w.save s base w.files) t = perform (do
      Disk.makeDirectory (w.directoryPath s base)
      writeBelow (w.directoryPath s base) w.files.entries
      pure (w.outputDirectory s)) t :=
  w.perform_save_of_valid s base w.files h
    (fun path hpath => isContained_iff.mp (h.contained_files path hpath)) t

/-- **Only the file system refuses to save the files of a valid workflow.** -/
theorem failsInSystem_save : FailsInSystem (w.save s base w.files) := by
  intro t f t' hsave
  rw [h.perform_save] at hsave
  refine Disk.failsInSystem_bind (Disk.failsInSystem_makeSteps _ _) (fun _ => ?_) t f t' hsave
  exact Disk.failsInSystem_bind (failsInSystem_writeBelow _ _) fun _ => Disk.failsInSystem_pure _

/-- **Saving the files of a valid workflow changes nothing but their places**, as far as it
goes. -/
theorem changed_save (t : Tree) :
    Changed (w.filePlaces s base) (w.fileWays s base) t (after (w.save s base w.files) t) := by
  rw [after, h.perform_save, filePlaces, fileWays, SortedMap.keys, List.map_map, List.flatMap_map]
  refine Disk.after_bind .trans (fun t => ?_) (fun _ => ?_) t
  · exact (Disk.changed_makeSteps [] _ t).mono (List.nil_subset _) (List.subset_append_left _ _)
  · refine Disk.after_bind .trans (fun t => ?_) fun _ t => .refl t
    exact (changed_writeBelow _ _ t).mono (List.Subset.refl _) (List.subset_append_right _ _)

end WorkflowSpec.Valid

end AgentFlow
