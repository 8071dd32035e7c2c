import AgentFlow.Command.Generate
import AgentFlow.Proofs.Command.Keeping
import AgentFlow.Proofs.Output.Baselines
import AgentFlow.Proofs.Workflow.Valid
import AgentFlow.Proofs.Workflow.Written

/-!
# The parts of generating

Generating a workflow falls into three parts: the files are planned, compared with a baseline, and
saved or listed.

* `GenerateOptions.generate_eq`: generating is its parts, one after the other.
* `GenerateOptions.meetsFrom_plan`: **planning keeps to the record of runs**, and its answer holds
  all files of a valid workflow.

A baseline is written as JSON and read back from it, so files do not differ from a baseline that was
captured from them.

* `Wire.baseline?_ofBaseline`: a baseline is read back from the value that it is written as.
* `Baseline.isClean_compare_capture`: files do not differ from their own baseline.
* `Command.baselineOfFile_captured`: **a baseline is read back from its file.**
-/

namespace AgentFlow

open Data Files Json

/-! ### Baselines -/

namespace Wire

theorem baseline?_ofBaseline (b : Baseline) : baseline? (ofBaseline b) = some b := by
  have hdigests : textMap? Value.text? (ofTextMap .text b.digests) = some b.digests :=
    @textMap?_ofTextMap String Value.text? .text (fun _ => rfl) _
  simp [baseline?, ofBaseline, Value.fields?, Value.allAt, Value.required, hdigests]

theorem numberless_ofBaseline (b : Baseline) : Numberless (ofBaseline b) :=
  .table (List.forall_mem_singleton.mpr (numberless_textMap .text _))

end Wire

theorem Baseline.isClean_compare_capture (files : FileSet) :
    ((capture files).compare files).isClean = true :=
  (between_compare files files).isClean_iff.mpr fun _ => rfl

theorem fromUTF8?_toUTF8 (s : String) : String.fromUTF8? s.toUTF8 = some s :=
  dif_pos s.isValidUTF8

namespace Command

/-- **A baseline is read back from its file.** -/
theorem baselineOfFile_captured {t : Tree} {path : String} {files : FileSet}
    (hpath : t.hasPath path = true)
    (hfile : t.get? (Tree.placeOf path) =
      some (.file (Json.pretty (Wire.ofBaseline (.capture files))).toUTF8)) :
    baselineOfFile t path = .ok (.capture files) := by
  have hread : t.readText? path = .ok (Json.pretty (Wire.ofBaseline (.capture files))) := by
    rw [Tree.readText?, Tree.read?, Tree.lookUp_eq_ok hpath hfile]
    simp only [bind, Except.bind, fromUTF8?_toUTF8]
  rw [baselineOfFile, hread]
  simp only [bind, Except.bind, read?_pretty (Wire.numberless_ofBaseline _), Option.bind,
    Wire.baseline?_ofBaseline]

end Command

namespace Command

open Activity

/-! ### What is generated -/

/-- What is ready to be compared with a baseline and saved. -/
structure Generated where
  context : Context
  workflow : WorkflowSpec
  files : FileSet

/-- All files of a valid workflow, for a record that the settings ask for. -/
structure Generated.Sound (record : Option String) (g : Generated) : Prop where
  valid : g.workflow.Valid
  files : g.files = g.workflow.files
  record : ∀ path, g.context.record = some path → record = some path

namespace GenerateOptions

variable (o : GenerateOptions) (env : Environment)

/-- The first part of generating: all that comes before the baseline. -/
def plan : Activity Generated := do
  let loaded ← Context.load env
  let c := { loaded with settings := o.settings env loaded.settings }
  let w ← o.spec env c
  let files ← Activity.require (w.generate.mapError .spec)
  if o.check then checkFiles c.settings.detection files
  return ⟨c, w, files⟩

/-- The comparison with a baseline, if one is stated. -/
def compare (files : FileSet) : Activity Unit :=
  match o.baseline with
  | some path => compareWithBaseline (env.resolve path) o.updateBaseline files
  | none => pure ()

/-- All that comes before saving. -/
def ready : Activity Generated := do
  let g ← o.plan env
  o.compare env g.files
  return g

/-- The last part of generating: the files are saved or listed. -/
def finish (g : Generated) : Activity Unit := do
  if o.dryRun then Activity.sayAll (listingLines g.workflow g.files)
  else
    let directory ←
      Activity.onDisk (g.workflow.save g.context.settings.generation env.root g.files)
    Activity.say (savedLine g.workflow g.files directory)
  Activity.note g.context.record (.ofFileCount g.files.size)

theorem generate_eq : generate env o = o.ready env >>= o.finish env := by
  obtain ⟨_, _, _, _, _, _, _, check, baseline, _⟩ := o
  cases check <;> cases baseline <;>
    simp [generate, ready, plan, compare, finish, bind_assoc]

section Plan

variable {record : Option String} {t : Tree}

theorem meets_spec {c : Context} (h : ∀ path, c.record = some path → record = some path) :
    Meets record t (o.spec env c) fun _ => True := by
  rw [spec]
  split
  · exact meets_bind meets_tree fun _ _ =>
      meets_bind (meets_require fun _ _ => trivial) fun _ _ => meets_pure trivial
  · refine meets_bind (meets_require fun _ _ => trivial) fun _ _ => ?_
    refine meets_bind (meets_require fun _ _ => trivial) fun _ _ => ?_
    refine meets_bind (meets_require fun _ _ => trivial) fun _ _ => ?_
    exact meets_bind (meets_note h _) fun _ _ => meets_require fun _ _ => trivial

theorem meets_checkFiles (s : DetectionSettings) (files : FileSet) :
    Meets record t (checkFiles s files) fun _ => True := by
  rw [checkFiles]
  refine meets_bind (meets_print _) fun _ _ => ?_
  dsimp only
  split
  · exact meets_bind (meets_throw _) fun _ h => h.elim
  · split
    · refine meets_bind (meets_complainAll _ _) fun _ _ => ?_
      exact meets_bind (meets_throw _) fun _ h => h.elim
    · exact meets_print _

theorem valid_of_generate {w : WorkflowSpec} {files : FileSet}
    (h : w.generate.mapError Fault.spec = .ok files) : w.Valid ∧ files = w.files := by
  rw [WorkflowSpec.generate] at h
  cases hvalid : w.validate with
  | error f => rw [hvalid] at h; exact absurd h nofun
  | ok u =>
    rw [hvalid] at h
    exact ⟨WorkflowSpec.validate_eq_ok_iff.mp hvalid, (Except.ok.inj h).symm⟩

/-- **Planning keeps to the record**, and its answer is sound. -/
theorem meetsFrom_plan (t : Tree) :
    MeetsFrom { tree := t } (env.record? t) t (o.plan env) (Generated.Sound (env.record? t)) := by
  refine meetsFrom_bind (meetsFrom_load env t) fun c hc => ?_
  refine meets_bind (o.meets_spec env hc) fun w _ => ?_
  refine meets_bind (meets_require fun _ => valid_of_generate) fun files hfiles => ?_
  dsimp only
  split
  · exact meets_bind (meets_checkFiles _ files) fun _ _ => meets_pure ⟨hfiles.1, hfiles.2, hc⟩
  · exact meets_pure ⟨hfiles.1, hfiles.2, hc⟩

end Plan

end GenerateOptions

end Command

end AgentFlow
