import AgentFlow.Files.Tree
import AgentFlow.Proofs.Text.Lines

/-!
# Steps and components of paths

A path is cut at its slashes.  What a path means is told by its components: a slash at the start
stands for the root, a dot for the directory itself, two dots for the directory around it, and
everything else is a name.

* `components`: the components of a path.
* `isContained_iff`: **the paths that are let through are those with names and dots only.**
* `steps_joinPath`: the steps of a joined path.
* `placeOf_joinPath`: **a contained path leads below the place that it is seen from.**
-/

namespace AgentFlow.Files

open Text

/-! ### Steps -/

/-- A slash ends a step. -/
theorem steps_append_slash (a b : String) : steps (a ++ "/" ++ b) = steps a ++ steps b := by
  have hcut : (a ++ "/" ++ b).toList = a.toList ++ '/' :: b.toList := by simp
  rw [steps, pieces, hcut, splitWhere_eq_splitOnP, List.splitOnP_append_cons _ _ (by decide),
    List.map_append, List.filter_append, ← splitWhere_eq_splitOnP, ← splitWhere_eq_splitOnP]
  rfl

theorem steps_append_endsWith {a : String} (h : endsWith a "/" = true) (b : String) :
    steps (a ++ b) = steps a ++ steps b := by
  obtain ⟨cs, hcs⟩ := List.isSuffixOf_iff_suffix.mp h
  obtain rfl : a = String.ofList cs ++ "/" := by
    rw [← String.toList_inj, ← hcs]
    simp
  have hlast : steps (String.ofList cs ++ "/") = steps (String.ofList cs) := by
    have hsplit := steps_append_slash (String.ofList cs) ""
    rw [String.append_empty] at hsplit
    rw [hsplit]
    exact List.append_nil _
  rw [steps_append_slash, hlast]

/-- The steps of a path that is seen from a directory. -/
theorem steps_joinPath {base rest : String} (h : startsWith rest "/" = false) :
    steps (joinPath base rest) = steps base ++ steps rest := by
  rw [joinPath, h, Bool.false_or]
  split
  · next hbase =>
    rw [String.isEmpty_iff] at hbase
    subst hbase
    rfl
  · split
    · next hslash => exact steps_append_endsWith hslash rest
    · exact steps_append_slash base rest

theorem steps_of_no_slash {s : String} (h : '/' ∉ s.toList) (hne : s ≠ "") : steps s = [s] := by
  have hsplit : s.toList.splitOnP (· == '/') = [s.toList] := by
    rw [List.splitOnP_eq_singleton]
    intro c hc
    rw [beq_eq_false_iff_ne]
    rintro rfl
    exact h hc
  rw [steps, pieces, splitWhere_eq_splitOnP, hsplit]
  simp [hne]

/-! ### Components -/

inductive Component where
  /-- The slash at the start of a path. -/
  | root
  | current
  | parent
  | normal (name : String)
  deriving DecidableEq

def Component.ofStep (step : String) : Component :=
  if step = "." then current else if step = ".." then parent else normal step

def components (path : String) : List Component :=
  (if startsWith path "/" then [.root] else []) ++ (steps path).map .ofStep

/-- Whether a component leads into the directory or stays there. -/
def Component.StaysInside (c : Component) : Prop := c = current ∨ ∃ name, c = normal name

theorem Component.staysInside_ofStep {step : String} :
    (Component.ofStep step).StaysInside ↔ step ≠ ".." := by
  rw [StaysInside, ofStep]
  split
  · next h => simp [h]
  · split
    · next h => simp [h]
    · next h => simp [h]

/-- The path is not empty, and it has only names and dots. -/
def Contained (path : String) : Prop := path ≠ "" ∧ ∀ c ∈ components path, c.StaysInside

/-- **The paths that are let through are those with names and dots only.** -/
theorem isContained_iff {path : String} : isContained path = true ↔ Contained path := by
  have hroot : ¬ Component.root.StaysInside := by simp [Component.StaysInside]
  rw [isContained, Contained, components, List.forall_mem_append, List.forall_mem_map]
  simp only [Component.staysInside_ofStep, Bool.and_eq_true, Bool.not_eq_true', bne_iff_ne,
    List.contains_eq_mem, decide_eq_false_iff_not, and_assoc]
  refine and_congr_right fun _ => and_congr ?_ ?_
  · cases startsWith path "/" <;> simp [hroot]
  · constructor
    · intro h step hstep hparent
      exact h (hparent ▸ hstep)
    · intro h hparent
      exact h _ hparent rfl

/-! ### Places -/

open Disk (plainSteps)
open Files.Tree (next placeOf)

/-- A step that is a name of a file or a directory. -/
def IsPlainStep (step : String) : Prop := step ≠ "" ∧ step ≠ "." ∧ step ≠ ".."

theorem next_of_isPlainStep {step : String} (h : IsPlainStep step) (p : Place) :
    next p step = p ++ [step] := by
  simp [next, h.1, h.2.1, h.2.2]

theorem foldl_next_of_isPlainStep {ss : List String} (h : ∀ step ∈ ss, IsPlainStep step)
    (p : Place) : ss.foldl next p = p ++ ss := by
  induction ss generalizing p with
  | nil => simp
  | cons step ss ih =>
    rw [List.forall_mem_cons] at h
    rw [List.foldl_cons, next_of_isPlainStep h.1, ih h.2, List.append_assoc, List.singleton_append]

/-- A path leads where its steps that count lead. -/
theorem placeOf_eq (path : String) : placeOf path = (plainSteps path).foldl next [] := by
  rw [placeOf, plainSteps, steps, List.filter_filter]
  generalize pieces (· == '/') path = ss
  generalize ([] : Place) = p
  induction ss generalizing p with
  | nil => rfl
  | cons step ss ih =>
    rw [List.foldl_cons, ih]
    by_cases hempty : step = ""
    · simp [hempty, next]
    · by_cases hdot : step = "."
      · simp [hdot, next]
      · rw [List.filter_cons_of_pos (by simp [hempty, hdot]), List.foldl_cons]

theorem plainSteps_joinPath {base rest : String} (h : startsWith rest "/" = false) :
    plainSteps (joinPath base rest) = plainSteps base ++ plainSteps rest := by
  rw [plainSteps, steps_joinPath h, List.filter_append]
  rfl

theorem startsWith_of_isContained {path : String} (h : isContained path = true) :
    startsWith path "/" = false := by
  simp only [isContained, Bool.and_eq_true, Bool.not_eq_true'] at h
  exact h.1.2

/-- The steps of a contained path that count are names. -/
theorem isPlainStep_of_isContained {path : String} (h : isContained path = true) :
    ∀ step ∈ plainSteps path, IsPlainStep step := by
  intro step hstep
  obtain ⟨hmem, hdot⟩ := List.mem_filter.mp hstep
  obtain ⟨-, hempty⟩ := List.mem_filter.mp hmem
  refine ⟨by simpa using hempty, by simpa using hdot, ?_⟩
  rintro rfl
  simp only [isContained, Bool.and_eq_true, Bool.not_eq_true', List.contains_eq_mem,
    decide_eq_false_iff_not] at h
  exact h.2 hmem

/-- **A contained path leads below the place that it is seen from.** -/
theorem placeOf_joinPath {base path : String} (h : isContained path = true) :
    placeOf (joinPath base path) = placeOf base ++ plainSteps path := by
  rw [placeOf_eq, plainSteps_joinPath (startsWith_of_isContained h), List.foldl_append,
    foldl_next_of_isPlainStep (isPlainStep_of_isContained h), ← placeOf_eq]

end AgentFlow.Files
