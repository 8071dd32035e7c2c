import AgentFlow.Proofs.Output.Exchange
import AgentFlow.Proofs.Recommendation.Pipeline
import AgentFlow.Proofs.Recommendation.WellFormed
import Mathlib.Data.List.Basic

/-!
# What a recommendation promises

A recommendation says beforehand what its workflow will contain.  The workflow is built from the
catalog once more, and the keys of its store are found apart from the file of nodes, which derives
them from the order of the nodes.

* `mem_keys_plansFrom`: the keys in the plans of nodes, `mem_keys_storeOf`: those of the store.
* `WorkflowSpec.Fulfils`: the workflow contains what was promised.
* `Recommender.fulfils`: **it does, after any corrections that are accepted, as long as no patterns
  are composed.**
-/

namespace AgentFlow

open Data Output Text

/-! ### Keys -/

/-- The keys in the plans of nodes are the one that is read first, those of the results, and the one
of the output. -/
theorem mem_keys_plansFrom {nodes : List NodeSpec} (hne : nodes ≠ []) (key k : String) :
    (∃ p ∈ plansFrom key nodes, k = p.inputKey ∨ k ∈ p.outputKeys) ↔
      k = key ∨ k ∈ nodes.map (·.resultKey) ∨ k = outputKey := by
  induction nodes generalizing key with
  | nil => exact absurd rfl hne
  | cons n rest ih =>
    rw [plansFrom]
    cases rest with
    | nil => simp [plansFrom, NodePlan.outputKeys]
    | cons m more =>
      have hrest := ih (List.cons_ne_nil _ _) n.resultKey
      have hkeys : (⟨n, key, false⟩ : NodePlan).outputKeys = [n.resultKey] := rfl
      have hresults : k ∈ (n :: m :: more).map (·.resultKey) ↔
          k = n.resultKey ∨ k ∈ (m :: more).map (·.resultKey) := List.mem_cons
      -- The result of a node is the key that the next one reads.
      rw [List.isEmpty_cons, List.exists_mem_cons_iff, hrest, hkeys, List.mem_singleton, hresults,
        or_assoc, or_assoc, or_self_left]

/-- The keys of the store of a new workflow. -/
theorem mem_keys_storeOf {nodes : List NodeSpec} {k : String} :
    k ∈ (storeOf nodes).keys ↔ k = inputKey ∨ k ∈ nodes.map (·.resultKey) ∨ k = outputKey := by
  rw [storeOf, SortedMap.mem_keys_ofList]
  simp [inputKey, outputKey, eq_comm]

/-! ### Promises -/

/-- The workflow contains what the recommendation promised, as far as the settings allow. -/
structure WorkflowSpec.Fulfils {α : Type} (w : WorkflowSpec) (r : Recommendation α)
    (s : GenerationSettings) : Prop where
  pattern : w.pattern = r.primary
  nodes : w.nodes.length = r.suggestions.estimatedNodes
  utilities : w.utilities.map (·.name) = r.suggestions.utilities
  fastApi : w.fastApi = (r.suggestions.fastApi && s.fastApi)
  endpoints : w.endpoints ≠ [] ↔ r.suggestions.fastApi = true ∧ s.fastApi = true
  /-- The store has the keys that the classes in the file of nodes read and store. -/
  keys : ∀ k, k ∈ w.sharedStore.keys ↔ ∃ u ∈ nodeUses w.nodesFile, k ∈ u.reads ∨ k ∈ u.stores
  /-- These are the input, the output and the results of the nodes. -/
  results : ∀ k, k ∈ w.sharedStore.keys ↔
    k = "input" ∨ k ∈ w.nodes.map (·.resultKey) ∨ k = "output"

variable {α : Type} [Scale α]

namespace Recommendation

variable {r : Recommendation α} {s : GenerationSettings} {name requirement : String}
  {w : WorkflowSpec}

/-- What a well-formed recommendation asks for is what it promised, if no patterns are composed. -/
theorem WellFormed.contents (h : r.WellFormed) :
    (r.contents false).pattern = r.primary ∧
      (r.contents false).nodes.length = r.suggestions.estimatedNodes ∧
        (r.contents false).utilities.map (·.name) = r.suggestions.utilities := by
  have hnone : r.promoted? false = none := by rw [promoted?, Bool.false_and]; rfl
  rw [Recommendation.contents, hnone]
  cases hs : r.customizations.scaffold with
  | some scaffold =>
    obtain ⟨hnodes, hutilities⟩ := h.ofScaffold scaffold hs
    exact ⟨rfl, hnodes.symm, hutilities.symm⟩
  | none =>
    obtain ⟨hnodes, hutilities⟩ := h.ofPattern hs
    exact ⟨rfl, hnodes.symm, hutilities.symm⟩

/-- **The workflow of a well-formed recommendation contains what was promised.** -/
theorem WellFormed.fulfils_workflow (h : r.WellFormed)
    (hw : r.workflow s false name requirement = .ok w) : w.Fulfils r s := by
  obtain ⟨hvalid, rfl⟩ := (workflow_eq_ok_iff s false name requirement).mp hw
  obtain ⟨hpattern, hnodes, hutilities⟩ := h.contents
  have hkeys : ∀ k, k ∈ (r.draft s false name requirement).sharedStore.keys ↔
      k = inputKey ∨ k ∈ (r.draft s false name requirement).nodes.map (·.resultKey) ∨
        k = outputKey := fun _ => mem_keys_storeOf
  exact {
    pattern := hpattern
    nodes := hnodes
    utilities := hutilities
    fastApi := rfl
    endpoints := by
      rw [draft]
      dsimp only
      cases r.suggestions.fastApi <;> cases s.fastApi <;> simp
    keys := by
      intro k
      rw [hkeys, hvalid.nodeUses_nodesFile, WorkflowSpec.plans,
        ← mem_keys_plansFrom hvalid.nodes_ne_nil]
      simp only [List.mem_map, exists_exists_and_eq_and, NodePlan.use, List.mem_singleton]
    results := hkeys }

end Recommendation

/-- **A workflow contains what its recommendation promised.**  From any text, through any
corrections that are accepted: under every name of a workflow one is built if no patterns are
composed, and it has the pattern, the number of nodes, the utilities and the interface that the last
recommendation states, and the keys that its nodes exchange. -/
theorem Recommender.fulfils (r : Recommender α) {text : String} (h : hasInk text = true) :
    ∃ first, r.recommend text = .ok first ∧
      ∀ (corrections : List Overrides) (last : Recommendation α),
        corrections.foldlM Recommendation.override first = .ok last →
      ∀ (s : GenerationSettings) (name requirement : String),
        ((∃ w, last.workflow s false name requirement = .ok w) ↔ IsWorkflowName name) ∧
          ∀ w, last.workflow s false name requirement = .ok w → w.Fulfils last s := by
  refine ⟨r.ofAnalysis (.ofText text r.stage), by rw [recommend, if_pos h], ?_⟩
  intro corrections last hlast s name requirement
  have hsound := (r.sound_ofAnalysis (.ofText text r.stage)).foldlM_override hlast
  have hwell : last.WellFormed := Recommendation.foldlM_override_induction
    (fun _ _ _ _ hr ho => hr.override ho) (r.wellFormed_ofAnalysis (.ofText text r.stage)) hlast
  refine ⟨?_, fun w => hwell.fulfils_workflow⟩
  rw [← hsound.valid_draft_iff s false name requirement]
  constructor
  · rintro ⟨w, hw⟩
    exact ((Recommendation.workflow_eq_ok_iff s false name requirement).mp hw).1
  · intro hvalid
    exact ⟨_, (Recommendation.workflow_eq_ok_iff s false name requirement).mpr ⟨hvalid, rfl⟩⟩

/-- A forced pattern without an interface. -/
theorem fulfils_standard :
    hasInk "Answer questions" = true ∧
      ∃ first last w, standardRecommender.recommend "Answer questions" = .ok first ∧
        [({ forcePattern := some "TOOL", disableFeatures := ["FastAPI"] } : Overrides)].foldlM
          Recommendation.override first = .ok last ∧
        last.workflow {} false "Help Desk" "Answer questions" = .ok w ∧ w.Fulfils last {} ∧
          w.pattern = .tool ∧ w.endpoints = [] := by
  have hink : hasInk "Answer questions" = true := by decide
  obtain ⟨first, hfirst, hall⟩ := standardRecommender.fulfils hink
  have hrun : [({ forcePattern := some "TOOL", disableFeatures := ["FastAPI"] } : Overrides)].foldlM
      Recommendation.override first = .ok (first.correct (some .tool) none ["fastapi"]) := rfl
  obtain ⟨remarks, hcorrect⟩ := Recommendation.exists_correct_eq first (some .tool) none ["fastapi"]
  have hprimary : (first.correct (some .tool) none ["fastapi"]).primary = .tool := by
    rw [hcorrect]
    rfl
  have hoff : (first.correct (some .tool) none ["fastapi"]).suggestions.fastApi = false := by
    rw [hcorrect]
    exact Bool.and_false _
  obtain ⟨hiff, hfulfils⟩ := hall _ _ hrun {} "Help Desk" "Answer questions"
  obtain ⟨w, hw⟩ := hiff.mpr (isWorkflowName_iff.mpr ⟨by decide, by decide⟩)
  have hkept := hfulfils w hw
  refine ⟨hink, first, _, w, hfirst, hrun, hw, hkept, hkept.pattern.trans hprimary, ?_⟩
  by_contra hne
  have hon := (hkept.endpoints.mp hne).1
  rw [hoff] at hon
  exact absurd hon nofun

end AgentFlow
