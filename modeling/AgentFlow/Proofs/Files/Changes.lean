import AgentFlow.Proofs.Files.Confined
import AgentFlow.Proofs.InPlace
import AgentFlow.Runs.Store

/-!
# Changed places

What an activity leaves in a tree, place by place: the files that it wrote and the directories that
it made.  Nothing else is different, whether the activity came to its end or stopped at a fault.

* `Tree.Changed`: only some places are different; it is reflexive and transitive.
* `Tree.Changed.hasPath`: a path that led somewhere goes on to do so.
* `Disk.changed_makeParent`, `Disk.changed_writeText`: what making directories and writing a text
  change.
* `RunLog.changed_openFile`, `RunLog.changed_recordIn`: **a record of runs is opened and added to at
  its own place.**
-/

namespace AgentFlow.Files

namespace Tree

def wayTo (path : String) : List Place := way [] (Disk.plainSteps path).dropLast

/-- A path leads somewhere if all its steps but the last lead to directories, and the last one to
something. -/
theorem hasPath_iff {t : Tree} {path : String} :
    t.hasPath path = true ↔ ∃ p, t.enter [] (rawSteps path).dropLast = .ok p ∧
      t.get? (next p ((rawSteps path).getLastD "")) ≠ none := by
  rw [hasPath, lookUp]
  cases t.enter [] (rawSteps path).dropLast with
  | error e => simp [bind, Except.bind, Except.toOption]
  | ok p =>
    simp only [bind, Except.bind, Except.toOption, Except.ok.injEq, exists_eq_left']
    cases t.get? (next p ((rawSteps path).getLastD "")) <;> simp

/-- The place of a path is seen from the directory that all its steps but the last lead to. -/
theorem placeOf_eq_next {t : Tree} {path : String} {p : Place}
    (h : t.enter [] (rawSteps path).dropLast = .ok p) :
    placeOf path = next p ((rawSteps path).getLastD "") := by
  have hsplit := congrArg (List.foldl next []) (Disk.rawSteps_eq path)
  rw [List.foldl_append, ← Disk.enter_eq_ok h] at hsplit
  exact hsplit

/-- Something is at the place of a path that leads somewhere. -/
theorem get?_placeOf_ne_none {t : Tree} {path : String} (h : t.hasPath path = true) :
    t.get? (placeOf path) ≠ none := by
  obtain ⟨p, henter, hentry⟩ := hasPath_iff.mp h
  rwa [placeOf_eq_next henter]

theorem lookUp_eq_ok {t : Tree} {path : String} {e : Entry} (h : t.hasPath path = true)
    (hentry : t.get? (placeOf path) = some e) : t.lookUp path = .ok (placeOf path, e) := by
  obtain ⟨p, henter, -⟩ := hasPath_iff.mp h
  rw [placeOf_eq_next henter] at hentry ⊢
  rw [lookUp, henter]
  simp only [bind, Except.bind, hentry]

/-- What is different in the second tree: files at the places `written`, where no directory was, and
directories at the places `made`, where nothing was. -/
def Changed (written made : List Place) (t t' : Tree) : Prop :=
  ∀ q, t'.get? q = t.get? q ∨
    (q ∈ written ∧ t.get? q ≠ some .directory ∧ ∃ c, t'.get? q = some (.file c)) ∨
    (q ∈ made ∧ t.get? q = none ∧ t'.get? q = some .directory)

namespace Changed

variable {written written' made made' : List Place} {t t' t'' : Tree}

theorem refl (t : Tree) : Changed written made t t := fun _ => .inl rfl

theorem trans (h : Changed written made t t') (h' : Changed written made t' t'') :
    Changed written made t t'' := by
  intro q
  rcases h q with heq | ⟨hwritten, hbefore, c, hfile⟩ | ⟨hmade, hbefore, hdirectory⟩
  · rw [← heq]
    exact h' q
  · refine .inr (.inl ⟨hwritten, hbefore, ?_⟩)
    rcases h' q with heq | ⟨-, -, hfile'⟩ | ⟨-, hnone, -⟩
    · exact ⟨c, heq.trans hfile⟩
    · exact hfile'
    · exact absurd (hfile.symm.trans hnone) nofun
  · refine .inr (.inr ⟨hmade, hbefore, ?_⟩)
    rcases h' q with heq | ⟨-, hno, -⟩ | ⟨-, -, hdirectory'⟩
    · exact heq.trans hdirectory
    · exact absurd hdirectory hno
    · exact hdirectory'

theorem mono (h : Changed written made t t') (hwritten : written ⊆ written')
    (hmade : made ⊆ made') : Changed written' made' t t' := by
  intro q
  rcases h q with heq | ⟨hq, hfile⟩ | ⟨hq, hdirectory⟩
  · exact .inl heq
  · exact .inr (.inl ⟨hwritten hq, hfile⟩)
  · exact .inr (.inr ⟨hmade hq, hdirectory⟩)

/-- What is not written over stays, where anything was. -/
theorem get?_eq (h : Changed written made t t') {q : Place} (hq : q ∉ written)
    (hbefore : t.get? q ≠ none) : t'.get? q = t.get? q := by
  rcases h q with heq | ⟨hwritten, -⟩ | ⟨-, hnone, -⟩
  · exact heq
  · exact absurd hwritten hq
  · exact absurd hnone hbefore

theorem directory (h : Changed written made t t') {q : Place} (hq : t.get? q = some .directory) :
    t'.get? q = some .directory := by
  rcases h q with heq | ⟨-, hno, -⟩ | ⟨-, -, hdirectory⟩
  · exact heq.trans hq
  · exact absurd hq hno
  · exact hdirectory

theorem get?_ne_none (h : Changed written made t t') {q : Place} (hq : t.get? q ≠ none) :
    t'.get? q ≠ none := by
  rcases h q with heq | ⟨-, -, c, hfile⟩ | ⟨-, -, hdirectory⟩
  · rwa [heq]
  · rw [hfile]
    exact nofun
  · rw [hdirectory]
    exact nofun

theorem enter_eq_ok (h : Changed written made t t') {p q : Place} {ss : List String}
    (hq : t.enter p ss = .ok q) : t'.enter p ss = .ok q := by
  induction ss generalizing p with
  | nil => exact hq
  | cons step rest ih =>
    rw [enter] at hq ⊢
    split at hq
    · next hstep =>
      rw [h.directory hstep]
      exact ih hq
    · cases hq
    · cases hq

/-- A path that led somewhere goes on to do so. -/
theorem hasPath (h : Changed written made t t') {path : String} (hpath : t.hasPath path = true) :
    t'.hasPath path = true := by
  obtain ⟨p, henter, hentry⟩ := hasPath_iff.mp hpath
  exact hasPath_iff.mpr ⟨p, h.enter_eq_ok henter, h.get?_ne_none hentry⟩

end Changed

end Tree

namespace Disk

open Files.Tree

/-! ### Directories and texts -/

theorem changed_makeSteps (p : Place) (ss : List String) (t : Tree) :
    Changed [] (way p ss) t ((makeSteps p ss).after t) :=
  fun q => (makeSteps_changes p ss t q).imp_right .inr

theorem changed_makeParent (path : String) (t : Tree) :
    Changed [] (wayTo path) t ((makeParent path).after t) := changed_makeSteps [] _ t

theorem changed_writeText (path text : String) (t : Tree) :
    Changed [placeOf path] [] t ((writeText path text).after t) := by
  intro q
  rw [after, writeText]
  rcases write_cases path text.toUTF8 t with heq | ⟨heq, hne, hno⟩ <;> rw [heq]
  · exact .inl rfl
  · by_cases hq : q = placeOf path
    · subst hq
      exact .inr (.inl ⟨List.mem_singleton_self _, hno, _, t.get?_put_self hne _⟩)
    · exact .inl (t.get?_put_of_ne hq _)

/-- Another fault for that of some work changes nothing in the tree. -/
theorem after_orElse_throw {α : Type} (work : Disk α) (f : Fault) (t : Tree) :
    after (work <|> throw f) t = work.after t := by
  rw [after, perform]
  change ((tryCatch work fun _ => throw f).run t).2 = (work.run t).2
  rw [InPlace.run_tryCatch]
  rcases work.run t with ⟨e | a, t'⟩ <;> rfl

/-! ### Faults -/

/-- Nothing but the file system refuses the work. -/
def FailsInSystem {α : Type} (work : Disk α) : Prop :=
  ∀ t f t', perform work t = (.error f, t') → f = .io

section Faults

variable {α β : Type}

theorem failsInSystem_pure (a : α) : FailsInSystem (pure a : Disk α) :=
  fun _ _ _ h => absurd h InPlace.ok_ne_error

theorem failsInSystem_bind {work : Disk α} {more : α → Disk β} (hwork : FailsInSystem work)
    (hmore : ∀ a, FailsInSystem (more a)) : FailsInSystem (work >>= more) := by
  intro t f t' h
  rw [perform_bind] at h
  rcases hrun : perform work t with ⟨e | a, t₁⟩ <;> rw [hrun] at h
  · obtain rfl := Except.error.inj (congrArg Prod.fst h)
    exact hwork t e t₁ hrun
  · exact hmore a t₁ f t' h

theorem failsInSystem_makeSteps (p : Place) (ss : List String) :
    FailsInSystem (makeSteps p ss) := by
  induction ss generalizing p with
  | nil => exact failsInSystem_pure ()
  | cons step rest ih =>
    intro t f t' h
    rw [makeSteps, perform_get_bind] at h
    cases hentry : t.get? (next p step) with
    | none =>
      simp only [hentry] at h
      split at h
      · rw [perform_modify_bind] at h
        exact ih _ _ f t' h
      · exact (Except.error.inj (congrArg Prod.fst h)).symm
    | some e =>
      cases e with
      | directory =>
        simp only [hentry] at h
        exact ih _ t f t' h
      | file c =>
        simp only [hentry] at h
        exact (Except.error.inj (congrArg Prod.fst h)).symm

theorem failsInSystem_writeText (path text : String) : FailsInSystem (writeText path text) := by
  intro t f t' h
  rcases write_cases path text.toUTF8 t with heq | ⟨heq, -, -⟩
  · exact (Except.error.inj (congrArg Prod.fst (heq.symm.trans h))).symm
  · exact absurd (heq.symm.trans h) InPlace.ok_ne_error

end Faults

end Disk

end AgentFlow.Files

/-! ### Records of runs -/

namespace AgentFlow.RunLog

open Files Files.Tree

theorem changed_openFile (path : String) (t : Tree) :
    Changed [placeOf path] (wayTo path) t ((openFile path).after t) := by
  refine Disk.after_bind .trans (fun t => ?_) (fun _ t => ?_) t
  · exact (Disk.changed_makeParent path t).mono (List.nil_subset _) (List.Subset.refl _)
  · rw [Disk.after, Disk.perform_get_bind, ← Disk.after]
    dsimp only
    split
    · exact .refl t
    · refine Disk.after_bind .trans (fun t => ?_) (fun _ t => .refl t) t
      rw [Disk.after_orElse_throw]
      exact (Disk.changed_writeText path "" t).mono (List.Subset.refl _) (List.nil_subset _)

theorem changed_recordIn (t : Tree) (path : String) (run : Run) (time : String) (duration : Nat) :
    Changed [placeOf path] [] t (RunLog.recordIn t path run time duration) := by
  rw [recordIn]
  split
  · exact .refl t
  · exact Disk.changed_writeText path _ t

end AgentFlow.RunLog
