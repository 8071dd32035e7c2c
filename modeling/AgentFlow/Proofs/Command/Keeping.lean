import AgentFlow.Command.Context
import AgentFlow.Proofs.Files.Changes

/-!
# Activities that keep to the record of runs

Most of what a command does leaves the files alone: it reads, prints, and notes runs for the record
that the settings ask for.  Such activities are put together by one rule, whether they come to their
end or stop at a fault.

* `Workspace.KeepsTo`: a workspace whose tree differs from an earlier one in the record only.
* `OnlyRecords`: the same of two trees, with the record that the settings in the first one ask for.
* `Activity.MeetsFrom`, `Activity.Meets`: an activity that keeps to the record, with what its answer
  is; `Activity.meets_bind` puts two of them together.
* `Workspace.changed_settle`: recording the noted runs changes the record only.
* `meetsFrom_load`: **loading the context of a command keeps to the record.**
-/

namespace AgentFlow

open Files
open Files.Disk (after perform)
open Files.Tree (Changed placeOf wayTo)

/-- The file of the record of runs that the settings in a tree ask for. -/
def Environment.record? (env : Environment) (t : Tree) : Option String :=
  match Settings.load t env with
  | .ok s => if s.metrics.enabled then some (env.recordFile s) else none
  | .error _ => none

namespace Command

variable {α β : Type}

/-! ### Workspaces -/

def recordPlaces (record : Option String) : List Place := record.toList.map placeOf

def recordWays (record : Option String) : List Place := record.toList.flatMap wayTo

/-- Nothing differs between the trees but the record of runs that the settings in the first one ask
for, the directories on the way to it, and directories that were made at further places. -/
def OnlyRecords (env : Environment) (made : List Place) (t t' : Tree) : Prop :=
  Changed (recordPlaces (env.record? t)) (recordWays (env.record? t) ++ made) t t'

/-- The tree of the workspace is the tree `t`, apart from the record of runs and the directories on
the way to it, and all runs that were noted are for that record. -/
structure Workspace.KeepsTo (record : Option String) (t : Tree) (ws : Workspace) : Prop where
  tree : Changed (recordPlaces record) (recordWays record) t ws.tree
  noted : ∀ n ∈ ws.noted, record = some n.path

namespace Workspace

variable {record : Option String}

theorem keepsTo_self (record : Option String) (t : Tree) : KeepsTo record t { tree := t } :=
  ⟨.refl t, List.forall_mem_nil _⟩

/-- Recording the runs that were noted changes nothing but the record. -/
theorem changed_settle (ws : Workspace) (hnoted : ∀ n ∈ ws.noted, record = some n.path)
    (time : String) (duration : Nat) :
    Changed (recordPlaces record) [] ws.tree (ws.settle time duration) := by
  rw [settle]
  generalize ws.tree = t
  revert t hnoted
  induction ws.noted with
  | nil => exact fun _ t => .refl t
  | cons n ns ih =>
    intro hnoted t
    rw [List.forall_mem_cons] at hnoted
    have hrecord : [placeOf n.path] ⊆ recordPlaces record := by
      rw [hnoted.1]
      exact List.Subset.refl _
    rw [List.foldl_cons]
    exact ((RunLog.changed_recordIn t n.path n.run time duration).mono hrecord
      (List.Subset.refl _)).trans (ih hnoted.2 _)

end Workspace

namespace OnlyRecords

variable {env : Environment} {made : List Place} {t t' : Tree} {ws : Workspace}

theorem of_keepsTo (h : ws.KeepsTo (env.record? t) t) : OnlyRecords env made t ws.tree :=
  h.tree.mono (List.Subset.refl _) (List.subset_append_left _ _)

theorem andMade (h : OnlyRecords env made t t') {t'' : Tree} (hmade : Changed [] made t' t'') :
    OnlyRecords env made t t'' :=
  Changed.trans h (hmade.mono (List.nil_subset _) (List.subset_append_right _ _))

theorem settle (h : OnlyRecords env made t ws.tree)
    (hnoted : ∀ n ∈ ws.noted, env.record? t = some n.path) (time : String) (duration : Nat) :
    OnlyRecords env made t (ws.settle time duration) :=
  Changed.trans h
    ((ws.changed_settle hnoted time duration).mono (List.Subset.refl _) (List.nil_subset _))

end OnlyRecords

/-! ### What activities keep to -/

namespace Activity

variable {record : Option String} {t : Tree} {Q : α → Prop} {R : β → Prop}

theorem run_tree_bind (more : Tree → Activity α) (ws : Workspace) :
    (tree >>= more).run ws = (more ws.tree).run ws := rfl

theorem run_onDisk (work : Disk α) (ws : Workspace) :
    (onDisk work).run ws =
      ((perform work ws.tree).1, { ws with tree := (perform work ws.tree).2 }) := rfl

/-- From a workspace, the activity leaves one that keeps to the record, even at a fault, and its
answer is as stated. -/
def MeetsFrom (ws : Workspace) (record : Option String) (t : Tree) (work : Activity α)
    (Q : α → Prop) : Prop :=
  (work.run ws).2.KeepsTo record t ∧ ∀ a, (work.run ws).1 = .ok a → Q a

/-- The same from every workspace that keeps to the record. -/
def Meets (record : Option String) (t : Tree) (work : Activity α) (Q : α → Prop) : Prop :=
  ∀ ws : Workspace, ws.KeepsTo record t → MeetsFrom ws record t work Q

theorem meetsFrom_bind {ws : Workspace} {work : Activity α} {more : α → Activity β}
    (hwork : MeetsFrom ws record t work Q)
    (hmore : ∀ a, Q a → Meets record t (more a) R) :
    MeetsFrom ws record t (work >>= more) R := by
  obtain ⟨hkeeps, hanswer⟩ := hwork
  rw [MeetsFrom, InPlace.run_bind]
  rcases hrun : work.run ws with ⟨f | a, ws'⟩ <;> rw [hrun] at hkeeps hanswer
  · exact ⟨hkeeps, fun _ h => absurd h nofun⟩
  · exact hmore a (hanswer a rfl) ws' hkeeps

theorem meets_bind {work : Activity α} {more : α → Activity β}
    (hwork : Meets record t work Q)
    (hmore : ∀ a, Q a → Meets record t (more a) R) :
    Meets record t (work >>= more) R :=
  fun ws hws => meetsFrom_bind (hwork ws hws) hmore

theorem meets_weaken {work : Activity α} {Q' : α → Prop} (h : Meets record t work Q)
    (himp : ∀ a, Q a → Q' a) : Meets record t work Q' :=
  fun ws hws => ⟨(h ws hws).1, fun a ha => himp a ((h ws hws).2 a ha)⟩

theorem meets_pure {a : α} (h : Q a) : Meets record t (pure a) Q :=
  fun _ hws => ⟨hws, fun _ ha => Except.ok.inj ha ▸ h⟩

theorem meets_require {result : Except Fault α} (h : ∀ a, result = .ok a → Q a) :
    Meets record t (require result) Q :=
  fun _ hws => ⟨hws, h⟩

theorem meets_throw (f : Fault) : Meets record t (throw f : Activity α) fun _ => False :=
  fun _ hws => ⟨hws, fun _ ha => absurd ha nofun⟩

theorem meets_print (text : String) : Meets record t (print text) fun _ => True :=
  fun _ hws => ⟨⟨hws.tree, hws.noted⟩, fun _ _ => trivial⟩

theorem meets_complain (line : String) : Meets record t (complain line) fun _ => True :=
  fun _ hws => ⟨⟨hws.tree, hws.noted⟩, fun _ _ => trivial⟩

theorem meets_complainAll {ι : Type} (items : List ι) (line : ι → String) :
    Meets record t (forIn items PUnit.unit fun i _ => do
      complain (line i)
      pure (ForInStep.yield PUnit.unit)) fun _ => True := by
  induction items with
  | nil => exact meets_pure trivial
  | cons i items ih =>
    rw [List.forIn_cons, bind_assoc]
    refine meets_bind (meets_complain (line i)) fun _ _ => ?_
    rw [pure_bind]
    exact ih

theorem meets_tree : Meets record t tree fun _ => True := fun _ hws => ⟨hws, fun _ _ => trivial⟩

theorem meets_note {recorded : Option String}
    (h : ∀ path, recorded = some path → record = some path) (run : Run) :
    Meets record t (note recorded run) fun _ => True := by
  cases recorded with
  | none => exact meets_pure trivial
  | some path =>
    refine fun ws hws => ⟨⟨hws.tree, ?_⟩, fun _ _ => trivial⟩
    change ∀ n ∈ ws.noted ++ [⟨path, run⟩], record = some n.path
    rw [List.forall_mem_append]
    exact ⟨hws.noted, List.forall_mem_singleton.mpr (h path rfl)⟩

theorem meets_onDisk {work : Disk α}
    (h : ∀ t, Changed (recordPlaces record) (recordWays record) t (after work t)) :
    Meets record t (onDisk work) fun _ => True :=
  fun ws hws => ⟨⟨hws.tree.trans (h ws.tree), hws.noted⟩, fun _ _ => trivial⟩

end Activity

open Activity

/-! ### The context -/

section Context

variable (env : Environment)

/-- Opening the record never stops a command. -/
theorem run_openRecord {s : Settings} (h : s.metrics.enabled = true) (ws : Workspace) :
    (openRecord env s).run ws =
      match (Activity.onDisk (RunLog.openFile (env.recordFile s))).run ws with
      | (.ok _, ws') => (.ok (some (env.recordFile s)), ws')
      | (.error _, ws') => (.ok none, ws') := by
  rw [openRecord, if_pos h, InPlace.run_bind, InPlace.run_tryCatch, InPlace.run_bind]
  rcases (Activity.onDisk (RunLog.openFile (env.recordFile s))).run ws with ⟨f | log, ws'⟩ <;> rfl

theorem meets_openRecord {s : Settings} {record : Option String} {t : Tree}
    (h : s.metrics.enabled = true → record = some (env.recordFile s)) :
    Meets record t (openRecord env s) fun r => ∀ path, r = some path → record = some path := by
  by_cases henabled : s.metrics.enabled = true
  · obtain rfl := h henabled
    intro ws hws
    have hopen : Meets (some (env.recordFile s)) t
        (Activity.onDisk (RunLog.openFile (env.recordFile s))) fun _ => True := by
      refine meets_onDisk fun t => ?_
      have hchanged := RunLog.changed_openFile (env.recordFile s) t
      rwa [recordPlaces, recordWays, Option.toList_some, List.map_singleton,
        List.flatMap_singleton]
    have hkeeps := (hopen ws hws).1
    rw [MeetsFrom, run_openRecord env henabled]
    rcases hrun : (Activity.onDisk (RunLog.openFile (env.recordFile s))).run ws with
      ⟨f | log, ws'⟩ <;> rw [hrun] at hkeeps
    · exact ⟨hkeeps, fun r hr path hpath => absurd (hr.trans (congrArg Except.ok hpath)) nofun⟩
    · exact ⟨hkeeps, fun r hr path hpath => (Except.ok.inj hr).trans hpath⟩
  · rw [openRecord, if_neg henabled]
    exact meets_pure fun _ h => absurd h nofun

/-- Loading the context keeps to the record that the settings ask for. -/
theorem meetsFrom_load (t : Tree) :
    MeetsFrom { tree := t } (env.record? t) t (Context.load env) fun c =>
      ∀ path, c.record = some path → env.record? t = some path := by
  have hsettings : MeetsFrom { tree := t } (env.record? t) t (loadSettings env) fun s =>
      Settings.load t env = .ok s :=
    ⟨Workspace.keepsTo_self _ t, fun _ h => h⟩
  refine meetsFrom_bind hsettings fun s hs => ?_
  refine meets_bind (meets_openRecord env fun henabled => ?_) fun r hr => meets_pure hr
  rw [Environment.record?, hs]
  exact if_pos henabled

end Context

end Command

end AgentFlow
