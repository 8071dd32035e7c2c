import AgentFlow.Proofs.Lint.Findings
import Mathlib.Algebra.Order.Group.Multiset

/-!
# Looser limits

Three settings bound what a node or a function may do.  Where all three are looser, a check finds
less: what it finds under the looser limits it finds under the stricter ones too, and what is left
out are findings that a limit decides about.  The findings are compared by their rule, severity and
line, since some of their messages state the limit.

* `Covers`: findings with those of others among them, and beyond them only some about limits.
* `covers_ruleOnNode`, `covers_ruleOnFunction`: what a single rule finds under stricter limits.
* `check_limits`: **looser limits never create findings.**
-/

namespace AgentFlow

/-- Each of the three limits is at least as loose in `b` as it is in `a`. -/
structure DetectionSettings.Loosens (a b : DetectionSettings) : Prop where
  execLines : a.maxExecLines ≤ b.maxExecLines
  prepPostLines : a.maxPrepPostLines ≤ b.maxPrepPostLines
  utilityBranches : a.minUtilityBranches ≤ b.minUtilityBranches

namespace Lint

/-! ### Findings without their messages -/

/-- What a finding is about: its rule, its severity and its line. -/
def Violation.key (v : Violation) : String × Severity × Nat := (v.ruleId, v.severity, v.line)

/-- The findings without their messages, each as often as it stands in the list. -/
def keys (vs : List Violation) : Multiset (String × Severity × Nat) := ↑(vs.map Violation.key)

theorem keys_append (vs ws : List Violation) : keys (vs ++ ws) = keys vs + keys ws := by
  rw [keys, List.map_append, ← Multiset.coe_add, keys, keys]

theorem keys_eq_of_perm {vs ws : List Violation} (h : vs.Perm ws) : keys vs = keys ws :=
  Multiset.coe_eq_coe.mpr (h.map _)

/-- A limit decides whether there is a finding with this rule and severity. -/
def DecidedByLimit (k : String × Severity × Nat) : Prop :=
  k.1 = Rule.monolithicNode.id ∨ (k.1 = Rule.lifecycleConfusion.id ∧ k.2.1 = .medium) ∨
    k.1 = Rule.businessLogicInUtility.id

/-- The findings `vs` have those of `ws` among them, and beyond them only some about limits. -/
def Covers (vs ws : List Violation) : Prop :=
  ∃ more, keys vs = keys ws + more ∧ ∀ k ∈ more, DecidedByLimit k

theorem Covers.of_keys {vs ws : List Violation} (h : keys vs = keys ws) : Covers vs ws := by
  refine ⟨0, ?_, ?_⟩
  · rw [h, add_zero]
  · intro k hk
    exact absurd hk (Multiset.notMem_zero k)

theorem covers_nil : Covers [] [] := .of_keys rfl

theorem covers_singleton {v : Violation} (h : DecidedByLimit v.key) : Covers [v] [] := by
  refine ⟨{v.key}, (zero_add _).symm, ?_⟩
  intro k hk
  rwa [Multiset.mem_singleton.mp hk]

variable {α : Type} {vs vs' ws ws' : List Violation}

theorem Covers.append (h : Covers vs ws) (h' : Covers vs' ws') :
    Covers (vs ++ vs') (ws ++ ws') := by
  obtain ⟨more, heq, hmore⟩ := h
  obtain ⟨more', heq', hmore'⟩ := h'
  refine ⟨more + more', ?_, ?_⟩
  · rw [keys_append, keys_append, heq, heq', add_add_add_comm]
  · intro k hk
    rcases Multiset.mem_add.mp hk with hk | hk
    · exact hmore k hk
    · exact hmore' k hk

theorem Covers.flatMap {f g : α → List Violation} (h : ∀ x, Covers (f x) (g x)) (xs : List α) :
    Covers (xs.flatMap f) (xs.flatMap g) := by
  induction xs with
  | nil => exact covers_nil
  | cons x xs ih => exact (h x).append ih

theorem Covers.of_perm (h : Covers vs ws) (hv : vs'.Perm vs) (hw : ws'.Perm ws) :
    Covers vs' ws' := by
  obtain ⟨more, heq, hmore⟩ := h
  exact ⟨more, by rw [keys_eq_of_perm hv, heq, keys_eq_of_perm hw], hmore⟩

/-- What is covered is a part, and the rest is about limits. -/
theorem Covers.le_and_sub (h : Covers vs ws) :
    keys ws ≤ keys vs ∧ ∀ k ∈ keys vs - keys ws, DecidedByLimit k := by
  obtain ⟨more, heq, hmore⟩ := h
  rw [heq, add_tsub_cancel_left]
  exact ⟨Multiset.le_add_right _ _, hmore⟩

/-! ### Single rules under two settings -/

section Rules

variable (path : String) {a b : DetectionSettings} (h : a.Loosens b)
include h

/-- **Under stricter limits a rule finds in a node what it finds under looser ones.** -/
theorem covers_ruleOnNode (r : Rule) (c : ClassFacts) :
    Covers (ruleOnNode path a r c) (ruleOnNode path b r c) := by
  cases r with
  | monolithicNode =>
    refine .flatMap (fun f => ?_) _
    by_cases hloose : 1 < f.modelCalls ∨ b.maxExecLines < f.bodyLines
    · have hstrict : 1 < f.modelCalls ∨ a.maxExecLines < f.bodyLines := by
        have := h.execLines
        omega
      rw [if_pos hloose, if_pos hstrict]
      exact .of_keys rfl
    · rw [if_neg hloose]
      split
      · exact covers_singleton (.inl rfl)
      · exact covers_nil
  | lifecycleConfusion =>
    refine .flatMap (fun f => ?_) _
    by_cases hcalls : 0 < f.modelCalls
    · rw [if_pos hcalls, if_pos hcalls]
      exact .of_keys rfl
    rw [if_neg hcalls, if_neg hcalls]
    by_cases hloose : b.maxPrepPostLines < f.bodyLines
    · have hstrict : a.maxPrepPostLines < f.bodyLines := by
        have := h.prepPostLines
        omega
      rw [if_pos hloose, if_pos hstrict]
      exact .of_keys rfl
    · rw [if_neg hloose]
      split
      · exact covers_singleton (.inr (.inl ⟨rfl, rfl⟩))
      · exact covers_nil
  | _ => exact .of_keys rfl

/-- **Under stricter limits a rule finds in a function what it finds under looser ones.** -/
theorem covers_ruleOnFunction (r : Rule) (f : FunctionFacts) :
    Covers (ruleOnFunction path a r f) (ruleOnFunction path b r f) := by
  cases r with
  | businessLogicInUtility =>
    rw [ruleOnFunction, ruleOnFunction]
    by_cases hloose : 0 < f.modelCalls ∧ b.minUtilityBranches ≤ f.branches
    · have hstrict : 0 < f.modelCalls ∧ a.minUtilityBranches ≤ f.branches := by
        have := h.utilityBranches
        omega
      rw [if_pos hloose, if_pos hstrict]
      exact .of_keys rfl
    · rw [if_neg hloose]
      split
      · exact covers_singleton (.inr (.inr rfl))
      · exact covers_nil
  | _ => exact .of_keys rfl

theorem covers_check (facts : SourceFacts) : Covers (check path a facts) (check path b facts) := by
  refine Covers.of_perm ?_ (check_perm path a facts) (check_perm path b facts)
  refine .append (.flatMap (fun c => ?_) _) (.flatMap (fun f => ?_) _)
  · exact .flatMap (fun r => covers_ruleOnNode path h r c) _
  · exact .flatMap (fun r => covers_ruleOnFunction path h r f) _

end Rules

/-- **Looser limits never create findings.**  Up to their messages, the findings under looser limits
are among those under stricter ones, and a limit decides about each of the others.  Whatever the
limits are, the findings are in the order of the lines, and those of a rule are exactly what the
rule finds in the nodes and in the functions outside classes. -/
theorem check_limits (path : String) (facts : SourceFacts) {a b : DetectionSettings}
    (h : a.Loosens b) :
    keys (check path b facts) ≤ keys (check path a facts) ∧
      (∀ k ∈ keys (check path a facts) - keys (check path b facts), DecidedByLimit k) ∧
      ∀ s, (check path s facts).Pairwise (fun v w => v.line ≤ w.line) ∧
        ∀ r, ((check path s facts).filter (·.isOf r)).Perm
          ((facts.classes.filter (·.isNode)).flatMap (ruleOnNode path s r) ++
            facts.functions.flatMap (ruleOnFunction path s r)) := by
  obtain ⟨hle, hmore⟩ := (covers_check path h facts).le_and_sub
  refine ⟨hle, hmore, fun s => ⟨pairwise_check path s facts, ?_⟩⟩
  intro r
  exact filter_isOf_check path s facts r

/-- Limits that are looser than the usual ones. -/
def roomySettings : DetectionSettings where
  maxExecLines := 60
  maxPrepPostLines := 40
  minUtilityBranches := 4

/-- A node with long methods, one of which calls a model, and a function that decides. -/
def crowdedFacts : SourceFacts where
  classes := [{
    name := "Draft", line := 1, bases := ["Node"],
    methods := [{ name := "prep", line := 2, bodyLines := 30 },
      { name := "exec", line := 35, bodyLines := 45 },
      { name := "post", line := 90, bodyLines := 50, callees := ["call_llm"] }] }]
  functions := [{ name := "route", line := 150, branches := 3, callees := ["call_llm"] }]

theorem check_limits_crowded :
    DetectionSettings.Loosens {} roomySettings ∧
      keys (check "nodes.py" {} crowdedFacts) =
        {("lifecycle_confusion", .medium, 2), ("monolithic_node", .high, 35),
          ("lifecycle_confusion", .high, 90), ("business_logic_in_utility", .high, 150)} ∧
      keys (check "nodes.py" roomySettings crowdedFacts) = {("lifecycle_confusion", .high, 90)} ∧
      keys (check "nodes.py" roomySettings crowdedFacts) ≤ keys (check "nodes.py" {} crowdedFacts) ∧
      ∀ k ∈ keys (check "nodes.py" {} crowdedFacts) -
        keys (check "nodes.py" roomySettings crowdedFacts), DecidedByLimit k := by
  have hloosens : DetectionSettings.Loosens {} roomySettings :=
    ⟨by decide, by decide, by decide⟩
  obtain ⟨hle, hmore, -⟩ := check_limits "nodes.py" crowdedFacts hloosens
  refine ⟨hloosens, ?_, ?_, hle, hmore⟩
  · exact (keys_eq_of_perm (List.mergeSort_perm _ _)).trans (by decide +kernel)
  · exact (keys_eq_of_perm (List.mergeSort_perm _ _)).trans (by decide +kernel)

end Lint

end AgentFlow
