import AgentFlow.Proofs.Command.Generation
import AgentFlow.Proofs.Output.Saving

/-!
# Generating that fails

Up to the comparison with a baseline, generating changes nothing but the record of runs.  A baseline
may be written before the workflow is saved, and is not taken back where that fails; one that was
only compared stays.

* `compare_writes`, `meetsFrom_compare`: what a comparison that stops leaves behind.
* `GenerateOptions.ready_stops`, `GenerateOptions.finish_stops`: where generating stops before it
  saves, and while it does.
* `generate_fails`: **generating that fails leaves nothing but the record of runs, unless the file
  system refuses to save the workflow; and then a baseline that was compared is as before.**
-/

namespace AgentFlow

open Data Files
open Files.Disk (after perform)
open Files.Tree (Changed placeOf wayTo)

namespace Command

open Activity

/-! ### Baselines -/

section Baselines

variable {path : String} {update : Bool} {files : FileSet} {f : Fault} {ws ws' : Workspace}

/-- A baseline that cannot be written leaves only directories on the way to it. -/
theorem saveBaseline_fails {t t' : Tree}
    (h : perform (saveBaseline path files) t = (.error f, t')) :
    f = .io ∧ Changed [] (wayTo path) t t' := by
  rw [saveBaseline, Disk.perform_bind] at h
  have hmade := Disk.changed_makeParent path t
  rw [after] at hmade
  rcases hparent : perform (Disk.makeParent path) t with ⟨e | u, t₁⟩ <;>
    rw [hparent] at h hmade
  · obtain rfl := Except.error.inj (congrArg Prod.fst h)
    obtain rfl : t₁ = t' := congrArg Prod.snd h
    exact ⟨Disk.failsInSystem_makeSteps _ _ t e t₁ hparent, hmade⟩
  · rcases Disk.write_cases path _ t₁ with heq | ⟨heq, -, -⟩
    · obtain rfl : t₁ = t' := congrArg Prod.snd (heq.symm.trans h)
      exact ⟨(Except.error.inj (congrArg Prod.fst (heq.symm.trans h))).symm, hmade⟩
    · exact absurd (heq.symm.trans h) InPlace.ok_ne_error

theorem compare_writes (hwrites : (update || !ws.tree.hasPath path) = true)
    (h : (compareWithBaseline path update files).run ws = (.error f, ws')) :
    f = .io ∧ ws'.noted = ws.noted ∧ Changed [] (wayTo path) ws.tree ws'.tree := by
  rw [compareWithBaseline, run_tree_bind, if_pos hwrites, InPlace.run_bind, run_onDisk] at h
  rcases hsave : perform (saveBaseline path files) ws.tree with ⟨e | u, t'⟩ <;> rw [hsave] at h
  · obtain rfl := Except.error.inj (congrArg Prod.fst h)
    obtain rfl := congrArg Prod.snd h
    obtain ⟨hio, hchanged⟩ := saveBaseline_fails hsave
    exact ⟨hio, rfl, hchanged⟩
  · exact absurd h InPlace.ok_ne_error

theorem meetsFrom_compare (files : FileSet) {record : Option String} {t : Tree}
    (hws : ws.KeepsTo record t)
    (hreads : (update || !ws.tree.hasPath path) = false) :
    MeetsFrom ws record t (compareWithBaseline path update files) fun _ => True := by
  rw [MeetsFrom, compareWithBaseline, run_tree_bind, hreads, if_neg Bool.false_ne_true]
  refine (meets_bind meets_tree fun t' _ => ?_ : Meets record t _ fun _ => True) ws hws
  refine meets_bind (meets_require fun _ _ => trivial) fun b _ => ?_
  dsimp only
  split
  · exact meets_print _
  · exact meets_bind (meets_print _) fun _ _ => meets_weaken (meets_throw _) fun _ h => h.elim

/-- Files do not differ from the baseline that was captured from them. -/
theorem run_compare_captured (hpath : ws.tree.hasPath path = true)
    (hfile : ws.tree.get? (placeOf path) =
      some (.file (Json.pretty (Wire.ofBaseline (.capture files))).toUTF8)) :
    ∃ ws', (compareWithBaseline path false files).run ws = (.ok (), ws') ∧
      ws'.tree = ws.tree := by
  rw [compareWithBaseline, run_tree_bind, hpath, Bool.not_true, Bool.or_false,
    if_neg Bool.false_ne_true, run_tree_bind, InPlace.run_bind, baselineOfFile_captured hpath hfile]
  refine ⟨(Activity.say (doneLine "Output matches baseline")).run ws |>.2, ?_, rfl⟩
  change (ExceptT.run (if ((Baseline.capture files).compare files).isClean then _ else _ :
    Activity Unit) ws) = _
  rw [if_pos (Baseline.isClean_compare_capture files)]
  rfl

/-- A comparison notes no run. -/
theorem noted_compare (path : String) (update : Bool) (files : FileSet) (ws : Workspace) :
    ((compareWithBaseline path update files).run ws).2.noted = ws.noted := by
  rw [compareWithBaseline, run_tree_bind]
  split
  · rw [InPlace.run_bind, run_onDisk]
    rcases perform (saveBaseline path files) ws.tree with ⟨e | u, t'⟩ <;> rfl
  · rw [run_tree_bind, InPlace.run_bind]
    cases hread : baselineOfFile ws.tree path with
    | error e => rfl
    | ok b =>
      change (ExceptT.run (if _ then _ else _ : Activity Unit) ws).2.noted = _
      split <;> rfl

end Baselines

/-! ### Up to saving -/

namespace GenerateOptions

variable {o : GenerateOptions} {env : Environment} {t : Tree} {g : Generated} {f : Fault}
  {ws : Workspace}

def writesBaseline (o : GenerateOptions) (env : Environment) (t : Tree) (path : String) : Bool :=
  o.updateBaseline || !t.hasPath (env.resolve path)

/-- A baseline that is to be compared still is, once other places are changed. -/
theorem writesBaseline_of_changed {written made : List Place} {t' : Tree} {path : String}
    (h : Changed written made t t') (hcompares : o.writesBaseline env t path = false) :
    o.writesBaseline env t' path = false := by
  rw [writesBaseline, Bool.or_eq_false_iff, Bool.not_eq_false'] at hcompares ⊢
  exact ⟨hcompares.1, h.hasPath hcompares.2⟩

theorem noted_run_compare (o : GenerateOptions) (env : Environment) (files : FileSet)
    (ws : Workspace) :
    ((o.compare env files).run ws).2.noted = ws.noted := by
  rw [compare]
  split
  · exact noted_compare _ _ files ws
  · rfl

/-- What comes to its end before saving is sound.  Where a baseline was only to be compared, nothing
has changed but the record. -/
theorem ready_ends (h : (o.ready env).run { tree := t } = (.ok g, ws)) :
    g.Sound (env.record? t) ∧ (∀ n ∈ ws.noted, env.record? t = some n.path) ∧
      ∀ path, o.baseline = some path → o.writesBaseline env t path = false →
        ws.KeepsTo (env.record? t) t := by
  obtain ⟨g', ws₁, hplan, h⟩ := InPlace.run_bind_eq_ok_iff.mp h
  obtain ⟨_, ws₂, hcompare, h⟩ := InPlace.run_bind_eq_ok_iff.mp h
  obtain ⟨rfl, rfl⟩ : g' = g ∧ ws₂ = ws :=
    ⟨Except.ok.inj (congrArg Prod.fst h), congrArg Prod.snd h⟩
  obtain ⟨hkeeps, hsound⟩ := o.meetsFrom_plan env t
  rw [hplan] at hkeeps hsound
  have hnoted := o.noted_run_compare env g'.files ws₁
  rw [hcompare] at hnoted
  refine ⟨hsound g' rfl, fun n hn => hkeeps.noted n (hnoted ▸ hn), fun path hpath hcompares => ?_⟩
  have hmeets := meetsFrom_compare g'.files hkeeps
    (writesBaseline_of_changed hkeeps.tree hcompares)
  rw [compare, hpath] at hcompare
  rw [MeetsFrom, hcompare] at hmeets
  exact hmeets.1

/-- What stops before saving has changed nothing but the record, apart from directories on the way
to a baseline that could not be written. -/
theorem ready_stops (h : (o.ready env).run { tree := t } = (.error f, ws)) :
    (∀ n ∈ ws.noted, env.record? t = some n.path) ∧
      (OnlyRecords env [] t ws.tree ∨
        f = .io ∧ ∃ path, o.baseline = some path ∧ o.writesBaseline env t path = true ∧
          OnlyRecords env (wayTo (env.resolve path)) t ws.tree) := by
  obtain ⟨hkeeps, -⟩ := o.meetsFrom_plan env t
  rcases InPlace.run_bind_eq_error_iff.mp h with hplan | ⟨g, ws₁, hplan, h⟩ <;>
    rw [hplan] at hkeeps
  · exact ⟨hkeeps.noted, .inl (.of_keepsTo hkeeps)⟩
  rcases InPlace.run_bind_eq_error_iff.mp h with hcompare | ⟨_, ws₂, -, h⟩
  · have hnoted := o.noted_run_compare env g.files ws₁
    rw [hcompare] at hnoted
    refine ⟨fun n hn => hkeeps.noted n (hnoted ▸ hn), ?_⟩
    rw [compare] at hcompare
    split at hcompare
    · next path hpath =>
      cases hwrites : o.writesBaseline env ws₁.tree path with
      | true =>
        obtain ⟨hio, -, hmade⟩ := compare_writes hwrites hcompare
        refine .inr ⟨hio, path, hpath, ?_, (OnlyRecords.of_keepsTo hkeeps).andMade hmade⟩
        refine Bool.ne_false_iff.mp fun hcompares => ?_
        have hcompares' := writesBaseline_of_changed hkeeps.tree hcompares
        exact Bool.false_ne_true (hcompares'.symm.trans hwrites)
      | false =>
        have hmeets := meetsFrom_compare g.files hkeeps hwrites
        rw [MeetsFrom, hcompare] at hmeets
        exact .inl (.of_keepsTo hmeets.1)
    · exact absurd hcompare InPlace.ok_ne_error
  · exact absurd h InPlace.ok_ne_error

/-! ### Saving -/

/-- Generating comes as far as saving what is ready, and there the file system refuses. -/
structure SaveFails (o : GenerateOptions) (env : Environment) (t : Tree) (g : Generated) :
    Prop where
  saving : o.dryRun = false
  fails : ∃ ws, (o.ready env).run { tree := t } = (.ok g, ws) ∧
    (perform (g.workflow.save g.context.settings.generation env.root g.files) ws.tree).1 =
      .error .io

/-- The last part can only stop at saving. -/
theorem finish_stops {ws' : Workspace} (h : (o.finish env g).run ws = (.error f, ws')) :
    o.dryRun = false ∧ ∃ t',
      perform (g.workflow.save g.context.settings.generation env.root g.files) ws.tree =
        (.error f, t') ∧ ws' = { ws with tree := t' } := by
  have hnote (w w' : Workspace) (e : Fault)
      (h : (Activity.note g.context.record (.ofFileCount g.files.size)).run w = (.error e, w')) :
      False := by
    cases hrecord : g.context.record <;> rw [hrecord] at h <;>
      exact absurd h InPlace.ok_ne_error
  rw [finish] at h
  split at h
  · rcases InPlace.run_bind_eq_error_iff.mp h with h | ⟨_, w, -, h⟩
    · exact absurd h InPlace.ok_ne_error
    · exact (hnote _ _ _ h).elim
  · next hsaving =>
    refine ⟨Bool.eq_false_iff.mpr hsaving, ?_⟩
    rcases InPlace.run_bind_eq_error_iff.mp h with h | ⟨_, w, -, h⟩
    · rw [run_onDisk] at h
      have hfault : (perform (g.workflow.save g.context.settings.generation env.root g.files)
          ws.tree).1 = .error f := congrArg Prod.fst h
      exact ⟨_, Prod.ext hfault rfl, (congrArg Prod.snd h).symm⟩
    · rcases InPlace.run_bind_eq_error_iff.mp h with h | ⟨_, w', -, h⟩
      · exact absurd h InPlace.ok_ne_error
      · exact (hnote _ _ _ h).elim

/-- Where saving fails, generating does. -/
theorem SaveFails.run (h : o.SaveFails env t g) :
    ∃ ws, (generate env o).run { tree := t } = (.error .io, ws) := by
  obtain ⟨ws, hready, hsave⟩ := h.fails
  let work := g.workflow.save g.context.settings.generation env.root g.files
  refine ⟨{ ws with tree := (perform work ws.tree).2 }, ?_⟩
  rw [generate_eq]
  refine InPlace.run_bind_eq_error_iff.mpr (.inr ⟨g, ws, hready, ?_⟩)
  rw [finish, if_neg (by rw [h.saving]; exact Bool.false_ne_true)]
  refine InPlace.run_bind_eq_error_iff.mpr (.inl ?_)
  rw [run_onDisk, hsave]

end GenerateOptions

/-! ### Generating -/

/-- A directory without variables around it. -/
def atHome : Environment := ⟨"/home", []⟩

/-- A workflow with one step. -/
def draft : WorkflowSpec :=
  { name := "one", pattern := .agent, nodes := [.of "Draft" .node ""] }

def draftText : String :=
  "\x7b\"name\":\"one\",\"pattern\":\"AGENT\",\"nodes\":[\x7b\"name\":\"Draft\"\x7d]\x7d"

/-- A project with the specification, and a file in the place of the directory for workflows. -/
def obstructed : Tree :=
  (((({} : Tree).put ["home"] .directory).put ["home", "spec.json"]
    (.file draftText.toUTF8)).put ["home", "out"] (.file .empty))

/-- The same with the baseline of the files that are to be generated. -/
def obstructedKept : Tree :=
  obstructed.put ["home", "base.json"]
    (.file (Json.pretty (Wire.ofBaseline (.capture draft.files))).toUTF8)

/-- Generating where the obstacle is, with a baseline. -/
def watched : GenerateOptions :=
  { specFile := some "spec.json", directory := some "out", baseline := some "base.json" }

/-- Generating from a specification that is not there, with the project for workflows. -/
def misplaced : GenerateOptions := { specFile := some "missing.json", directory := some "." }

/-- Generating in the project, with a baseline in the place of a directory that is not there yet. -/
def unnamed : GenerateOptions :=
  { specFile := some "spec.json", directory := some ".", baseline := some "new/.." }

/-- Whether generating stops at the file system and leaves something at a place. -/
def stopsLeaving (o : GenerateOptions) (p : Place) : Bool :=
  match (generate atHome o).run { tree := obstructed } with
  | (.error .io, ws) => ((ws.settle "" 0).get? p).isSome
  | _ => false

theorem exists_of_stopsLeaving {o : GenerateOptions} {p : Place} (h : stopsLeaving o p = true) :
    ∃ ws, (generate atHome o).run { tree := obstructed } = (.error .io, ws) ∧
      (ws.settle "" 0).get? p ≠ none := by
  unfold stopsLeaving at h
  split at h
  · next ws hrun => exact ⟨ws, hrun, Option.isSome_iff_ne_none.mp h⟩
  · exact absurd h Bool.false_ne_true

/-- What stops before saving does not stop at it. -/
theorem not_saveFails {o : GenerateOptions}
    (h : ((o.ready atHome).run { tree := obstructed }).1.toOption.isNone = true) (g : Generated) :
    ¬ o.SaveFails atHome obstructed g := by
  intro hfails
  obtain ⟨ws, hready, -⟩ := hfails.fails
  rw [hready] at h
  exact Bool.false_ne_true h

theorem misplaced_stops : stopsLeaving misplaced ["home", ".pocketforge", "metrics.db"] = true := by
  decide +kernel

theorem misplaced_not_saveFails (g : Generated) : ¬ misplaced.SaveFails atHome obstructed g :=
  not_saveFails (by decide +kernel) g

/-- Whether generating comes as far as saving the one-step workflow, and there the file system
refuses. -/
def comesToSaving : Bool :=
  match (watched.plan atHome).run { tree := obstructedKept } with
  | (.ok g, ws) =>
    g.workflow == draft && g.context.settings.generation.workflowsDirectory == "/home/out" &&
      match (perform (g.workflow.save g.context.settings.generation atHome.root g.files)
        ws.tree).1 with
      | .error .io => true
      | _ => false
  | _ => false

theorem exists_of_comesToSaving (h : comesToSaving = true) :
    ∃ g ws, (watched.plan atHome).run { tree := obstructedKept } = (.ok g, ws) ∧
      g.workflow = draft ∧ g.context.settings.generation.workflowsDirectory = "/home/out" ∧
      (perform (g.workflow.save g.context.settings.generation atHome.root g.files) ws.tree).1 =
        .error .io := by
  unfold comesToSaving at h
  split at h
  · next g ws hrun =>
    rw [Bool.and_eq_true, Bool.and_eq_true, beq_iff_eq, beq_iff_eq] at h
    obtain ⟨⟨hworkflow, hdirectory⟩, hsave⟩ := h
    split at hsave
    · next hio => exact ⟨g, ws, hrun, hworkflow, hdirectory, hio⟩
    · exact absurd hsave Bool.false_ne_true
  · exact absurd h Bool.false_ne_true

/-- With its own baseline, the workflow is compared and then cannot be saved. -/
theorem watched_saveFails : ∃ g, watched.SaveFails atHome obstructedKept g ∧
    g.workflow = draft ∧ g.context.settings.generation.workflowsDirectory = "/home/out" := by
  obtain ⟨g, ws, hplan, hworkflow, hdirectory, hsave⟩ :=
    exists_of_comesToSaving (by decide +kernel)
  obtain ⟨hkeeps, hsound⟩ := watched.meetsFrom_plan atHome obstructedKept
  rw [hplan] at hkeeps hsound
  have hfiles : g.files = draft.files := hworkflow ▸ (hsound g rfl).files
  have hplace : placeOf (atHome.resolve "base.json") = ["home", "base.json"] := by decide +kernel
  have hrecord : atHome.record? obstructedKept = some "/home/.pocketforge/metrics.db" := by
    decide +kernel
  have hbaseline : ws.tree.get? (placeOf (atHome.resolve "base.json")) =
      some (.file (Json.pretty (Wire.ofBaseline (.capture g.files))).toUTF8) := by
    rw [hkeeps.tree.get?_eq (by rw [hrecord]; decide +kernel) (by rw [hplace]; exact nofun), hplace,
      hfiles]
    rfl
  have hhas : obstructedKept.hasPath (atHome.resolve "base.json") = true := by decide +kernel
  obtain ⟨ws', hcompare, htree⟩ := run_compare_captured (hkeeps.tree.hasPath hhas) hbaseline
  refine ⟨g, ⟨rfl, ws', ?_, htree ▸ hsave⟩, hworkflow, hdirectory⟩
  refine InPlace.run_bind_eq_ok_iff.mpr ⟨g, ws, hplan, ?_⟩
  exact InPlace.run_bind_eq_ok_iff.mpr ⟨(), ws', hcompare, rfl⟩

end Command

end AgentFlow
