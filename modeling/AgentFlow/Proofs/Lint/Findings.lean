import AgentFlow.Proofs.Lint.SharedMutations
import Mathlib.Data.List.Perm.Basic

/-!
# Findings by rule

A check goes through the nodes and functions of a text and asks all rules of one after the other, in
part several of them in one go.  Here each rule is on its own: what it finds in a node, and what it
finds in a function outside classes.

* `ruleOnNode`, `ruleOnFunction`: what a single rule finds.
* `checkNode_perm`, `checkUtility_eq`: **a check of a node or a function asks the rules one by
  one.**
* `filter_isOf_check`: **among the findings of a check those of a rule are what the rule finds.**
* `pairwise_check`: the findings are in the order of the lines.
-/

namespace AgentFlow.Lint

/-! ### Single rules -/

def ClassFacts.execs (c : ClassFacts) : List FunctionFacts :=
  c.methods.filter fun f => f.name == "exec" || f.name == "exec_async"

/-- The methods of a node that read and write the shared store. -/
def ClassFacts.arounds (c : ClassFacts) : List FunctionFacts :=
  c.methods.filter fun f => ["prep", "prep_async", "post", "post_async"].contains f.name

variable (path : String) (s : DetectionSettings)

def missingFinding (c : ClassFacts) : Violation :=
  .of .missingLifecycleMethod path c.line
    ("Node '" ++ c.name ++ "' defines no exec or exec_async method")
    "Move the node's computation into exec() and keep prep/post for shared store I/O"

/-- The finding about a computing method that does too much: it calls models, or it is long. -/
def monolithicFinding (c : ClassFacts) (f : FunctionFacts) : Violation :=
  .of .monolithicNode path f.line
    (c.name ++ "." ++ f.name ++ " does too much: " ++
      if 1 < f.modelCalls then toString f.modelCalls ++ " LLM calls"
      else toString f.bodyLines ++ " lines (limit " ++ toString s.maxExecLines ++ ")")
    "Split the work into separate nodes connected in the flow"

def handlerFinding (c : ClassFacts) (f : FunctionFacts) (t : TryFacts) : Violation :=
  .of .exceptionHandlingInExec path t.line
    (c.name ++ "." ++ f.name ++ " catches " ++ commaText t.broad ++
      " instead of letting the node retry")
    "Remove the try/except and configure max_retries / exec_fallback on the node"

/-- The finding about a method beside the computing one that calls a model. -/
def modelCallFinding (c : ClassFacts) (f : FunctionFacts) : Violation :=
  .withSeverity .lifecycleConfusion .high path f.line
    (c.name ++ "." ++ f.name ++ " calls an LLM; model calls belong in exec")
    "Return the model input from prep and make the call in exec"

def longMethodFinding (c : ClassFacts) (f : FunctionFacts) : Violation :=
  .of .lifecycleConfusion path f.line
    (c.name ++ "." ++ f.name ++ " spans " ++ toString f.bodyLines ++ " lines (limit " ++
      toString s.maxPrepPostLines ++ ")")
    "Keep prep/post to shared store reads and writes; compute in exec"

/-- The finding about a node whose name states several responsibilities. -/
def nameFinding (c : ClassFacts) (verbs : List String) : Violation :=
  .of .multiResponsibilityName path c.line
    ("Node name '" ++ c.name ++ "' combines several responsibilities (" ++ commaText verbs ++ ")")
    "Split the node so each class does one thing"

def logicFinding (f : FunctionFacts) : Violation :=
  .of .businessLogicInUtility path f.line
    ("Utility '" ++ f.name ++ "' mixes " ++ toString f.branches ++ " branches with an LLM call")
    "Keep utilities to a single external call; move decisions into nodes"

def ruleOnNode (r : Rule) (c : ClassFacts) : List Violation :=
  match r with
  | .missingLifecycleMethod => if c.execs = [] then [missingFinding path c] else []
  | .sharedStateInExec =>
    c.execs.flatMap fun f => (f.sharedAccesses.head?.map (sharedFinding path c f)).toList
  | .monolithicNode =>
    c.execs.flatMap fun f =>
      if 1 < f.modelCalls ∨ s.maxExecLines < f.bodyLines then [monolithicFinding path s c f] else []
  | .exceptionHandlingInExec =>
    c.execs.flatMap fun f => (f.tries.filter (·.broad ≠ [])).map (handlerFinding path c f)
  | .lifecycleConfusion =>
    c.arounds.flatMap fun f =>
      if 0 < f.modelCalls then [modelCallFinding path c f]
      else if s.maxPrepPostLines < f.bodyLines then [longMethodFinding path s c f]
      else []
  | .multiResponsibilityName => ((severalResponsibilities? c.name).map (nameFinding path c)).toList
  | _ => []

def ruleOnFunction (r : Rule) (f : FunctionFacts) : List Violation :=
  match r with
  | .businessLogicInUtility =>
    if 0 < f.modelCalls ∧ s.minUtilityBranches ≤ f.branches then [logicFinding path f] else []
  | .sharedStateMutationInUtility => ((changedArgument? f).map (mutationFinding path f)).toList
  | _ => []

/-- All rules, first those on nodes, then those on functions outside classes.  The last ones are on
texts that cannot be read and on lines. -/
def Rule.all : List Rule :=
  [.missingLifecycleMethod, .sharedStateInExec, .monolithicNode, .exceptionHandlingInExec,
    .lifecycleConfusion, .multiResponsibilityName, .businessLogicInUtility,
    .sharedStateMutationInUtility, .syntaxError, .analysisError, .loopInNonBatchNode,
    .blockingCallInSyncNode]

theorem Rule.mem_all (r : Rule) : r ∈ all := by
  cases r <;> decide

theorem Rule.id_injective {r r' : Rule} (h : r.id = r'.id) : r = r' := by
  have hall : ∀ r ∈ all, ∀ r' ∈ all, r.id = r'.id → r = r' := by decide
  exact hall r r.mem_all r' r'.mem_all h

/-! ### All rules -/

theorem checkExec_eq (c : ClassFacts) (f : FunctionFacts) :
    checkExec path s c f =
      (f.sharedAccesses.head?.map (sharedFinding path c f)).toList ++
        ((if 1 < f.modelCalls ∨ s.maxExecLines < f.bodyLines then [monolithicFinding path s c f]
          else []) ++
          (f.tries.filter (·.broad ≠ [])).map (handlerFinding path c f)) := by
  rw [checkExec, List.append_assoc]
  refine congrArg₂ (· ++ ·) ?_ (congrArg₂ (· ++ ·) ?_ ?_)
  · unfold sharedFinding
    cases f.sharedAccesses <;> rfl
  · unfold monolithicFinding
    by_cases hcalls : 1 < f.modelCalls
    · rw [if_pos hcalls, if_pos (.inl hcalls), if_pos hcalls]
    · rw [if_neg hcalls, if_neg hcalls]
      simp only [hcalls, false_or]
  · unfold handlerFinding
    induction f.tries with
    | nil => rfl
    | cons t ts ih =>
      rw [List.flatMap_cons, ih]
      cases ht : t.broad <;> simp [ht]

/-- **A check of a node asks the rules one by one.** -/
theorem checkNode_perm (c : ClassFacts) :
    (checkNode path s c).Perm (Rule.all.flatMap fun r => ruleOnNode path s r c) := by
  have hexecs : (c.execs.flatMap (checkExec path s c)).Perm
      (ruleOnNode path s .sharedStateInExec c ++ (ruleOnNode path s .monolithicNode c ++
        ruleOnNode path s .exceptionHandlingInExec c)) := by
    simp only [funext (checkExec_eq path s c), ruleOnNode]
    refine (List.flatMap_append_perm ..).symm.trans ?_
    exact (List.flatMap_append_perm ..).symm.append_left _
  have hmissing : (if c.execs.isEmpty then [missingFinding path c] else []) =
      ruleOnNode path s .missingLifecycleMethod c := by
    simp only [ruleOnNode, List.isEmpty_iff]
  calc checkNode path s c
    _ = ruleOnNode path s .missingLifecycleMethod c ++ c.execs.flatMap (checkExec path s c) ++
        ruleOnNode path s .lifecycleConfusion c ++
        ruleOnNode path s .multiResponsibilityName c := by
      rw [← hmissing]
      simp only [checkNode, ruleOnNode]
      cases severalResponsibilities? c.name <;> rfl
    List.Perm _ (ruleOnNode path s .missingLifecycleMethod c ++
        (ruleOnNode path s .sharedStateInExec c ++ (ruleOnNode path s .monolithicNode c ++
          ruleOnNode path s .exceptionHandlingInExec c)) ++
        ruleOnNode path s .lifecycleConfusion c ++
        ruleOnNode path s .multiResponsibilityName c) :=
      ((hexecs.append_left _).append_right _).append_right _
    _ = Rule.all.flatMap fun r => ruleOnNode path s r c := by
      simp only [Rule.all, List.flatMap_cons, List.flatMap_nil, List.append_assoc]
      simp only [ruleOnNode, List.append_nil]

theorem checkUtility_eq (f : FunctionFacts) :
    checkUtility path s f = Rule.all.flatMap fun r => ruleOnFunction path s r f := by
  have hlogic : (if 0 < f.modelCalls && s.minUtilityBranches ≤ f.branches then
      [logicFinding path f] else []) = ruleOnFunction path s .businessLogicInUtility f := by
    simp only [ruleOnFunction, Bool.and_eq_true, decide_eq_true_eq]
  calc checkUtility path s f
    _ = ruleOnFunction path s .businessLogicInUtility f ++
        ruleOnFunction path s .sharedStateMutationInUtility f := by
      rw [← hlogic, checkUtility, ruleOnFunction, changedArgument?]
      cases f.mutations.find? fun m => (f.parameters.filter sharedNames.contains).contains m.value
      · rfl
      · rfl
    _ = Rule.all.flatMap fun r => ruleOnFunction path s r f := by
      simp only [Rule.all, List.flatMap_cons, List.flatMap_nil]
      simp only [ruleOnFunction, List.nil_append, List.append_nil]

/-- A check asks the rules one by one of every node and of every function outside classes. -/
theorem check_perm (facts : SourceFacts) :
    (check path s facts).Perm
      ((facts.classes.filter (·.isNode)).flatMap (fun c =>
          Rule.all.flatMap fun r => ruleOnNode path s r c) ++
        facts.functions.flatMap fun f => Rule.all.flatMap fun r => ruleOnFunction path s r f) := by
  refine (List.mergeSort_perm _ _).trans (List.Perm.append ?_ ?_)
  · exact List.Perm.flatMap_left _ fun c _ => checkNode_perm path s c
  · rw [funext (checkUtility_eq path s)]

/-! ### One rule among all -/

def Violation.isOf (v : Violation) (r : Rule) : Bool := v.ruleId == r.id

theorem ruleId_of_mem_ruleOnNode {r : Rule} {c : ClassFacts} {v : Violation}
    (hv : v ∈ ruleOnNode path s r c) : v.ruleId = r.id := by
  cases r with
  | missingLifecycleMethod =>
    obtain ⟨-, hv⟩ := List.mem_ite_nil_right.mp hv
    rw [List.mem_singleton.mp hv]
    rfl
  | sharedStateInExec =>
    obtain ⟨f, -, hv⟩ := List.mem_flatMap.mp hv
    obtain ⟨first, -, rfl⟩ := Option.map_eq_some_iff.mp (Option.mem_toList.mp hv)
    rfl
  | monolithicNode =>
    obtain ⟨f, -, hv⟩ := List.mem_flatMap.mp hv
    obtain ⟨-, hv⟩ := List.mem_ite_nil_right.mp hv
    rw [List.mem_singleton.mp hv]
    rfl
  | exceptionHandlingInExec =>
    obtain ⟨f, -, hv⟩ := List.mem_flatMap.mp hv
    obtain ⟨t, -, rfl⟩ := List.mem_map.mp hv
    rfl
  | lifecycleConfusion =>
    obtain ⟨f, -, hv⟩ := List.mem_flatMap.mp hv
    by_cases hcalls : 0 < f.modelCalls
    · rw [if_pos hcalls] at hv
      rw [List.mem_singleton.mp hv]
      rfl
    · rw [if_neg hcalls] at hv
      obtain ⟨-, hv⟩ := List.mem_ite_nil_right.mp hv
      rw [List.mem_singleton.mp hv]
      rfl
  | multiResponsibilityName =>
    obtain ⟨verbs, -, rfl⟩ := Option.map_eq_some_iff.mp (Option.mem_toList.mp hv)
    rfl
  | _ => exact absurd hv List.not_mem_nil

theorem ruleId_of_mem_ruleOnFunction {r : Rule} {f : FunctionFacts} {v : Violation}
    (hv : v ∈ ruleOnFunction path s r f) : v.ruleId = r.id := by
  cases r with
  | businessLogicInUtility =>
    obtain ⟨-, hv⟩ := List.mem_ite_nil_right.mp hv
    rw [List.mem_singleton.mp hv]
    rfl
  | sharedStateMutationInUtility =>
    obtain ⟨m, -, rfl⟩ := Option.map_eq_some_iff.mp (Option.mem_toList.mp hv)
    rfl
  | _ => exact absurd hv List.not_mem_nil

/-- Among what all rules find, the findings of a rule are its own. -/
theorem filter_isOf_flatMap {g : Rule → List Violation} (hg : ∀ r, ∀ v ∈ g r, v.ruleId = r.id)
    (r : Rule) : (Rule.all.flatMap g).filter (·.isOf r) = g r := by
  have hself : (g r).filter (·.isOf r) = g r := by
    refine List.filter_eq_self.mpr ?_
    intro v hv
    rw [Violation.isOf, hg r v hv, beq_self_eq_true]
  have hother : ∀ r', r' ≠ r → (g r').filter (·.isOf r) = [] := by
    intro r' hne
    refine List.filter_eq_nil_iff.mpr ?_
    intro v hv
    rw [Violation.isOf, hg r' v hv, beq_iff_eq]
    exact fun he => hne (Rule.id_injective he)
  have hfilter : ∀ rs : List Rule, rs.Nodup →
      (rs.flatMap g).filter (·.isOf r) = if r ∈ rs then g r else [] := by
    intro rs hrs
    induction rs with
    | nil => rfl
    | cons r' rs ih =>
      obtain ⟨hnot, hrs⟩ := List.nodup_cons.mp hrs
      rw [List.flatMap_cons, List.filter_append, ih hrs]
      by_cases hr : r' = r
      · subst hr
        rw [hself, if_neg hnot, if_pos List.mem_cons_self, List.append_nil]
      · rw [hother r' hr, List.nil_append]
        simp only [List.mem_cons, Ne.symm hr, false_or]
  rw [hfilter Rule.all (by decide), if_pos r.mem_all]

/-- **What a check says of a rule is what the rule finds in the nodes and in the functions outside
classes**, each finding as often as it is found. -/
theorem filter_isOf_check (facts : SourceFacts) (r : Rule) :
    ((check path s facts).filter (·.isOf r)).Perm
      ((facts.classes.filter (·.isNode)).flatMap (ruleOnNode path s r) ++
        facts.functions.flatMap (ruleOnFunction path s r)) := by
  have hnode : ∀ c, (Rule.all.flatMap fun r => ruleOnNode path s r c).filter (·.isOf r) =
      ruleOnNode path s r c :=
    fun c => filter_isOf_flatMap (fun r v => ruleId_of_mem_ruleOnNode path s) r
  have hfunction : ∀ f, (Rule.all.flatMap fun r => ruleOnFunction path s r f).filter (·.isOf r) =
      ruleOnFunction path s r f :=
    fun f => filter_isOf_flatMap (fun r v => ruleId_of_mem_ruleOnFunction path s) r
  refine ((check_perm path s facts).filter _).trans ?_
  simp only [List.filter_append, List.filter_flatMap, hnode, hfunction]
  exact .refl _

/-- **The findings are in the order of the lines.** -/
theorem pairwise_check (facts : SourceFacts) :
    (check path s facts).Pairwise fun v w => v.line ≤ w.line := by
  have htrans : ∀ u v w : Violation, decide (u.line ≤ v.line) = true →
      decide (v.line ≤ w.line) = true → decide (u.line ≤ w.line) = true := by
    intro u v w huv hvw
    rw [decide_eq_true_eq] at *
    omega
  have htotal : ∀ v w : Violation,
      (decide (v.line ≤ w.line) || decide (w.line ≤ v.line)) = true := by
    intro v w
    rw [Bool.or_eq_true, decide_eq_true_eq, decide_eq_true_eq]
    omega
  exact (List.pairwise_mergeSort htrans htotal _).imp of_decide_eq_true

end AgentFlow.Lint
