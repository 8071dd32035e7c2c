import AgentFlow.Lint.Detect

/-!
# Texts that pass a check

A check fails on a critical or a high violation.  Here it is stated what the facts about a text have
to be so that none is found.

* `checkLines_tolerated`: the rules on lines never fail a check.
* `SourceFacts.Fits`: what nodes and functions may do.
* `detect_tolerated`: **nothing that fails a check is found in a text that can be read and whose
  classes and functions do only that.**
-/

namespace AgentFlow.Lint

/-- The violation does not fail a check. -/
def Violation.Tolerated (v : Violation) : Prop := v.severity.isBlocking = false

/-! ### Rules on lines -/

namespace LineScope

theorem findings_tolerated (path : String) (s : LineScope) (number : Nat) (line : List Char) :
    ∀ v ∈ s.findings path number line, v.Tolerated := by
  intro v hv
  rw [findings] at hv
  cases hc : s.cls? with
  | none =>
    rw [hc] at hv
    exact absurd hv List.not_mem_nil
  | some c =>
    simp only [hc] at hv
    split at hv
    · exact absurd hv List.not_mem_nil
    · rcases List.mem_append.mp hv with hv | hv
      · split at hv
        · obtain rfl := List.mem_singleton.mp hv
          rfl
        · exact absurd hv List.not_mem_nil
      · split at hv
        · obtain rfl := List.mem_singleton.mp hv
          rfl
        · exact absurd hv List.not_mem_nil

theorem step_tolerated (path : String) (s : LineScope) (number : Nat) (line : List Char) :
    ∀ v ∈ (s.step path number line).2, v.Tolerated := by
  intro v hv
  rw [step] at hv
  split at hv
  · exact absurd hv List.not_mem_nil
  · dsimp only at hv
    split at hv
    · exact absurd hv List.not_mem_nil
    · split at hv
      · split at hv <;> exact absurd hv List.not_mem_nil
      · exact findings_tolerated _ _ _ _ v hv

theorem run_tolerated (path : String) (s : LineScope) (number : Nat) (ls : List (List Char)) :
    ∀ v ∈ run path s number ls, v.Tolerated := by
  induction ls generalizing s number with
  | nil => exact fun v hv => absurd hv List.not_mem_nil
  | cons line rest ih =>
    rw [run]
    exact List.forall_mem_append.mpr ⟨step_tolerated path s number line, ih _ _⟩

end LineScope

/-- The rules on lines never fail a check. -/
theorem checkLines_tolerated (path source : String) : ∀ v ∈ checkLines path source, v.Tolerated :=
  LineScope.run_tolerated path {} 1 _

/-! ### Rules on classes and functions -/

variable {path : String} {s : DetectionSettings}

def execNames : List String := ["exec", "exec_async"]

def aroundNames : List String := ["prep", "prep_async", "post", "post_async"]

/-- What a method that computes may do. -/
structure FunctionFacts.FitsExec (s : DetectionSettings) (f : FunctionFacts) : Prop where
  accesses : f.sharedAccesses = []
  tries : f.tries = []
  calls : f.modelCalls ≤ 1
  lines : f.bodyLines ≤ s.maxExecLines

/-- What a method may do, by its name. -/
structure FunctionFacts.FitsMethod (s : DetectionSettings) (f : FunctionFacts) : Prop where
  exec : f.name ∈ execNames → f.FitsExec s
  around : f.name ∈ aroundNames → f.modelCalls = 0

/-- What a function outside classes may do. -/
structure FunctionFacts.FitsUtility (s : DetectionSettings) (f : FunctionFacts) : Prop where
  branches : f.branches < s.minUtilityBranches
  mutations : f.mutations = [] ∨ ∀ p ∈ f.parameters, p ∉ sharedNames

/-- What the nodes and the functions of a text may do. -/
structure SourceFacts.Fits (s : DetectionSettings) (facts : SourceFacts) : Prop where
  classes : ∀ c ∈ facts.classes, c.isNode = true → ∀ f ∈ c.methods, f.FitsMethod s
  functions : ∀ f ∈ facts.functions, f.FitsUtility s

theorem checkExec_eq_nil {c : ClassFacts} {f : FunctionFacts} (h : f.FitsExec s) :
    checkExec path s c f = [] := by
  simp [checkExec, h.accesses, h.tries, Nat.not_lt.mpr h.calls, Nat.not_lt.mpr h.lines]

theorem checkAround_tolerated {c : ClassFacts} {f : FunctionFacts} (h : f.modelCalls = 0) :
    ∀ v ∈ checkAround path s c f, v.Tolerated := by
  intro v hv
  simp only [checkAround, h, Nat.lt_irrefl, if_false] at hv
  split at hv
  · obtain rfl := List.mem_singleton.mp hv
    rfl
  · exact absurd hv List.not_mem_nil

theorem checkNode_tolerated {c : ClassFacts} (h : ∀ f ∈ c.methods, f.FitsMethod s) :
    ∀ v ∈ checkNode path s c, v.Tolerated := by
  rw [checkNode]
  refine List.forall_mem_append.mpr ⟨List.forall_mem_append.mpr ⟨List.forall_mem_append.mpr
    ⟨?_, ?_⟩, ?_⟩, ?_⟩
  · intro v hv
    split at hv
    · obtain rfl := List.mem_singleton.mp hv
      rfl
    · exact absurd hv List.not_mem_nil
  · intro v hv
    obtain ⟨f, hf, hv⟩ := List.mem_flatMap.mp hv
    obtain ⟨hmem, hname⟩ := List.mem_filter.mp hf
    rw [checkExec_eq_nil ((h f hmem).exec (by simpa [execNames] using hname))] at hv
    exact absurd hv List.not_mem_nil
  · intro v hv
    obtain ⟨f, hf, hv⟩ := List.mem_flatMap.mp hv
    obtain ⟨hmem, hname⟩ := List.mem_filter.mp hf
    exact checkAround_tolerated ((h f hmem).around (List.contains_iff_mem.mp hname)) v hv
  · intro v hv
    split at hv
    · exact absurd hv List.not_mem_nil
    · obtain rfl := List.mem_singleton.mp hv
      rfl

theorem checkUtility_eq_nil {f : FunctionFacts} (h : f.FitsUtility s) :
    checkUtility path s f = [] := by
  have hmutation : (f.mutations.find? fun m =>
      (f.parameters.filter sharedNames.contains).contains m.value) = none := by
    rw [List.find?_eq_none]
    rintro m hm hshared
    rcases h.mutations with hnone | hfree
    · exact absurd (hnone ▸ hm) List.not_mem_nil
    · obtain ⟨hp, hmem⟩ := List.mem_filter.mp (List.contains_iff_mem.mp hshared)
      exact hfree _ hp (List.contains_iff_mem.mp hmem)
  simp only [checkUtility, hmutation, List.append_nil]
  rw [if_neg]
  have := h.branches
  simp only [Bool.and_eq_true, decide_eq_true_eq, not_and]
  omega

theorem check_tolerated {facts : SourceFacts} (h : facts.Fits s) :
    ∀ v ∈ check path s facts, v.Tolerated := by
  intro v hv
  rw [check, List.mem_mergeSort, List.mem_append] at hv
  rcases hv with hv | hv
  · obtain ⟨c, hc, hv⟩ := List.mem_flatMap.mp hv
    obtain ⟨hmem, hnode⟩ := List.mem_filter.mp hc
    exact checkNode_tolerated (h.classes c hmem hnode) v hv
  · obtain ⟨f, hf, hv⟩ := List.mem_flatMap.mp hv
    rw [checkUtility_eq_nil (h.functions f hf)] at hv
    exact absurd hv List.not_mem_nil

/-- **A text that can be read passes a check if its nodes and functions do only what they may.** -/
theorem detect_tolerated {source : String} {t : Code.Tree} (hread : Code.parse source = .ok t)
    (h : (sourceFacts t).Fits s) : ∀ v ∈ detect path s source, v.Tolerated := by
  intro v hv
  rw [detect, hread] at hv
  simp only [List.mem_mergeSort, List.mem_append] at hv
  exact hv.elim (check_tolerated h v) (checkLines_tolerated path source v)

end AgentFlow.Lint
