import AgentFlow.Proofs.Recommendation.Pipeline
import AgentFlow.Proofs.Scoring.Ranking

/-!
# Composed patterns

A workflow may be composed of two patterns in place of the recommended one.  These are the patterns
of the strongest known combination, which is a matter of the scores alone: neither the best pattern
nor one that the user forces has to be among them.

* `Recommendation.combinations_foldlM_override`: corrections leave the combinations as they are.
* `Recommendation.Sound.exists_promoted`: what a composed workflow is composed of.
* `Recommender.promotes`: **the patterns of a composed workflow are those of the strongest known
  combination of the first recommendation; the recommended pattern is their first one exactly if it
  is among them.**
-/

namespace AgentFlow

open Data

variable {α : Type}

/-! ### The recommended pattern first -/

theorem primaryFirst_perm (p : Pattern) (ps : List Pattern) : (primaryFirst p ps).Perm ps := by
  rw [primaryFirst]
  split
  · next hp => exact (List.perm_cons_erase (List.contains_iff_mem.mp hp)).symm
  · exact .refl ps

theorem head?_primaryFirst {p : Pattern} {ps : List Pattern} (hp : p ∈ ps) :
    (primaryFirst p ps).head? = some p := by
  rw [primaryFirst, if_pos (List.contains_iff_mem.mpr hp)]
  rfl

theorem primaryFirst_of_notMem {p : Pattern} {ps : List Pattern} (hp : p ∉ ps) :
    primaryFirst p ps = ps := by
  rw [primaryFirst, if_neg fun h => hp (List.contains_iff_mem.mp h)]

/-! ### Combinations -/

variable [Scale α]

theorem Customizations.knownHybrid_of_strongestHybrid {c : Customizations α} {best : Combination α}
    (h : c.strongestHybrid? = some best) : best.knownHybrid = true := by
  rcases mem_of_foldl_strongerOf h with h | h
  · exact (List.mem_filter.mp h).2
  · exact absurd h nofun

namespace Recommendation

open Overrides

variable {r t : Recommendation α}

/-- **Corrections leave the combinations as they are.** -/
theorem combinations_override {o : Overrides} (h : r.override o = .ok t) :
    t.customizations.combinations = r.customizations.combinations := by
  obtain ⟨forced, features, -, -, rfl⟩ := override_eq_ok_iff.mp h
  obtain ⟨remarks, hcorrect⟩ := exists_correct_eq r forced o.size features
  rw [hcorrect]

/-- Corrections that choose no size leave the scaffold as it is. -/
theorem scaffold_override {o : Overrides} (h : r.override o = .ok t) (ho : o.size = none) :
    t.customizations.scaffold = r.customizations.scaffold := by
  obtain ⟨forced, features, -, -, rfl⟩ := override_eq_ok_iff.mp h
  obtain ⟨remarks, hcorrect⟩ := exists_correct_eq r forced o.size features
  rw [hcorrect, ho]
  rfl

theorem combinations_foldlM_override {os : List Overrides}
    (h : os.foldlM Recommendation.override r = .ok t) :
    t.customizations.combinations = r.customizations.combinations :=
  foldlM_override_induction
    (P := fun s => s.customizations.combinations = r.customizations.combinations)
    (fun _ _ _ _ hs ho => (combinations_override ho).trans hs) rfl h

theorem scaffold_foldlM_override {os : List Overrides}
    (h : os.foldlM Recommendation.override r = .ok t) (hos : ∀ o ∈ os, o.size = none) :
    t.customizations.scaffold = r.customizations.scaffold :=
  foldlM_override_induction (P := fun s => s.customizations.scaffold = r.customizations.scaffold)
    (fun o ho _ _ hs hstep => (scaffold_override hstep (hos o ho)).trans hs) rfl h

/-- The strongest known combination depends on the combinations only. -/
theorem strongestHybrid_eq (h : t.customizations.combinations = r.customizations.combinations) :
    t.customizations.strongestHybrid? = r.customizations.strongestHybrid? := by
  rw [Customizations.strongestHybrid?, Customizations.strongestHybrid?, h]

/-- **A composed workflow is composed of the patterns of the strongest known combination.** -/
theorem Sound.exists_promoted (h : r.Sound) {promote : Bool}
    (hp : (r.contents promote).pattern = .hybrid) :
    ∃ c, r.customizations.strongestHybrid? = some c ∧
      (r.contents promote).basePatterns = primaryFirst r.primary c.patterns := by
  rw [contents] at hp ⊢
  cases hs : r.customizations.scaffold with
  | some s =>
    rw [hs] at hp
    exact absurd hp h.primary_ne_hybrid
  | none =>
    rw [hs] at hp
    cases hps : r.promoted? promote with
    | none =>
      rw [hps] at hp
      exact absurd hp h.primary_ne_hybrid
    | some ps =>
      rw [promoted?] at hps
      split at hps
      · obtain ⟨c, hc, rfl⟩ := Option.map_eq_some_iff.mp hps
        exact ⟨c, hc, rfl⟩
      · exact absurd hps.symm (Option.some_ne_none _)

/-- The strongest known combination takes the place of the pattern, unless a scaffold does. -/
theorem Sound.workflow_of_strongestHybrid (h : r.Sound) (hs : r.customizations.scaffold = none)
    {c : Combination α}
    (hc : r.customizations.strongestHybrid? = some c) (s : GenerationSettings)
    {name requirement : String} (hname : IsWorkflowName name) :
    ∃ w, r.workflow s true name requirement = .ok w ∧ w.pattern = .hybrid ∧
      w.basePatterns = primaryFirst r.primary c.patterns := by
  have hpromoted : r.promoted? true = some (primaryFirst r.primary c.patterns) := by
    rw [promoted?, hs, hc]
    rfl
  have hcontents : (r.contents true).pattern = .hybrid ∧
      (r.contents true).basePatterns = primaryFirst r.primary c.patterns := by
    rw [contents, hs, hpromoted]
    exact ⟨rfl, rfl⟩
  exact ⟨_, (workflow_eq_ok_iff s true name requirement).mpr
    ⟨(h.valid_draft_iff s true name requirement).mpr hname, rfl⟩, hcontents⟩

/-- A pattern that can be recommended can be forced. -/
theorem exists_force (r : Recommendation α) {name : String} {p : Pattern}
    (hp : Pattern.parse? name = some p) (hbase : p.isBase = true) :
    ∃ t, r.override { forcePattern := some name } = .ok t ∧ t.primary = p := by
  obtain ⟨remarks, hcorrect⟩ := exists_correct_eq r (some p) none []
  refine ⟨_, override_eq_ok_iff.mpr ⟨some p, [], forced_eq_some_iff.mpr ⟨name, rfl, hp, hbase⟩,
    features_eq_ok_iff.mpr ⟨rfl, List.not_mem_nil⟩, hcorrect⟩, rfl⟩

end Recommendation

/-- **What a composed workflow is composed of, whatever the text and the corrections of the user:**
the patterns of the strongest combination of the first recommendation that is known to compose well.
The recommended pattern comes first if it is one of them.  Otherwise they keep their order, and the
recommended pattern, be it the best one or forced by the user, is not among them. -/
theorem Recommender.promotes (r : Recommender α) {text : String} (h : Text.hasInk text = true) :
    ∃ first, r.recommend text = .ok first ∧
      ∀ (corrections : List Overrides) (last : Recommendation α),
        corrections.foldlM Recommendation.override first = .ok last →
      ∀ (s : GenerationSettings) (name requirement : String) (w : WorkflowSpec),
        last.workflow s true name requirement = .ok w → w.pattern = .hybrid →
          ∃ c, first.customizations.strongestHybrid? = some c ∧ c.knownHybrid = true ∧
            w.basePatterns.Perm c.patterns ∧
              (w.basePatterns.head? = some last.primary ↔ last.primary ∈ c.patterns) ∧
                (last.primary ∉ c.patterns → w.basePatterns = c.patterns) := by
  refine ⟨r.ofAnalysis (.ofText text r.stage), by rw [recommend, if_pos h], ?_⟩
  intro corrections last hlast s name requirement w hw hp
  have hsound := (r.sound_ofAnalysis (.ofText text r.stage)).foldlM_override hlast
  obtain ⟨-, rfl⟩ := (Recommendation.workflow_eq_ok_iff s true name requirement).mp hw
  obtain ⟨c, hc, hpatterns⟩ := hsound.exists_promoted hp
  have hbase : (last.draft s true name requirement).basePatterns =
      primaryFirst last.primary c.patterns := hpatterns
  rw [Recommendation.strongestHybrid_eq (Recommendation.combinations_foldlM_override hlast)] at hc
  refine ⟨c, hc, Customizations.knownHybrid_of_strongestHybrid hc, ?_, ⟨?_, ?_⟩, ?_⟩
  · rw [hbase]
    exact primaryFirst_perm _ _
  · intro hhead
    rw [hbase] at hhead
    exact (primaryFirst_perm _ _).mem_iff.mp (List.mem_of_mem_head? hhead)
  · intro hmem
    rw [hbase]
    exact head?_primaryFirst hmem
  · intro hmem
    rw [hbase]
    exact primaryFirst_of_notMem hmem

/-! ### A pattern that is dropped -/

/-- A text that speaks for a workflow most of all, and next for a pair that composes well. -/
def stagedText : String := "Workflow step per stage, goal agent, vector FAQ"

namespace StagedText

def analysis : Analysis := .ofText stagedText .createSpec

def scores : Scores Float32 where
  ofPattern :=
    { entries := [(.rag, 0.5227076), (.agent, 0.5227076), (.tool, 0), (.workflow, 0.61710715),
        (.mapReduce, 0), (.multiAgent, 0), (.structuredOutput, 0)]
      increasing := by unfold Increasing; decide }

theorem entries_score :
    (standardRecommender.scorer.score analysis).ofPattern.entries = scores.ofPattern.entries := by
  decide +kernel

theorem score_eq : standardRecommender.scorer.score analysis = scores := by
  have h := entries_score
  cases hs : standardRecommender.scorer.score analysis with
  | mk m =>
    rw [hs] at h
    cases m
    cases h
    rfl

theorem scaffold : (standardRecommender.ofAnalysis analysis).customizations.scaffold = none := by
  decide +kernel

theorem numbers_scores : scores.Numbers := by unfold Scores.Numbers; decide +kernel

theorem primary : (standardRecommender.ofAnalysis analysis).primary = .workflow := by
  have hfirst : ∀ d ∈ scores.ofPattern.entries,
      d.2 ≤ 0.61710715 ∧
        (d.2 = 0.61710715 → d.1 = .workflow ∨ Pattern.workflow.rank < d.1.rank) := by
    decide +kernel
  have hbest : scores.primary? = some (.workflow, 0.61710715) :=
    (Scores.primary?_eq_some_iff numbers_scores).mpr ⟨by decide +kernel, by simp [scores], hfirst⟩
  rw [Recommender.ofAnalysis, score_eq, Recommender.choose, hbest]
  dsimp only
  split <;> rfl

theorem strongestHybrid :
    ∃ c, (standardRecommender.ofAnalysis analysis).customizations.strongestHybrid? = some c ∧
      c.patterns = [.rag, .agent] := by
  rw [← Option.map_eq_some_iff (f := Combination.patterns), Recommender.ofAnalysis, score_eq]
  decide +kernel

theorem recommend_eq : standardRecommender.recommend stagedText =
    .ok (standardRecommender.ofAnalysis analysis) := by
  rw [Recommender.recommend, if_pos (by decide)]
  rfl

/-- Whatever pattern is forced, the workflow is composed of the same two. -/
theorem exists_workflow {os : List Overrides} {last : Recommendation Float32}
    (h : os.foldlM Recommendation.override (standardRecommender.ofAnalysis analysis) = .ok last)
    (hos : ∀ o ∈ os, o.size = none) :
    ∃ w, last.workflow {} true "Help Desk" stagedText = .ok w ∧ w.pattern = .hybrid ∧
      w.basePatterns = primaryFirst last.primary [.rag, .agent] := by
  have hname : IsWorkflowName "Help Desk" := isWorkflowName_iff.mpr ⟨by decide, by decide⟩
  have hsound := (standardRecommender.sound_ofAnalysis analysis).foldlM_override h
  have hscaffold := (Recommendation.scaffold_foldlM_override h hos).trans scaffold
  obtain ⟨c, hc, hpatterns⟩ := strongestHybrid
  have hsame := Recommendation.combinations_foldlM_override h
  rw [← hpatterns]
  exact hsound.workflow_of_strongestHybrid hscaffold
    ((Recommendation.strongestHybrid_eq hsame).trans hc) {} hname

end StagedText

/-- A forced pattern of the pair comes first. -/
theorem promotes_stagedText :
    Text.hasInk stagedText = true ∧
      ∃ first last w, standardRecommender.recommend stagedText = .ok first ∧
        first.override { forcePattern := some "AGENT" } = .ok last ∧
          last.workflow {} true "Help Desk" stagedText = .ok w ∧ w.pattern = .hybrid ∧
            w.basePatterns.head? = some .agent := by
  have hink : Text.hasInk stagedText = true := by decide
  obtain ⟨first, hfirst, hall⟩ := standardRecommender.promotes hink
  obtain rfl := Except.ok.inj (StagedText.recommend_eq.symm.trans hfirst)
  obtain ⟨last, hlast, hprimary⟩ :=
    Recommendation.exists_force (standardRecommender.ofAnalysis StagedText.analysis)
      (by decide : Pattern.parse? "AGENT" = some .agent) rfl
  have hrun : [({ forcePattern := some "AGENT" } : Overrides)].foldlM Recommendation.override
      (standardRecommender.ofAnalysis StagedText.analysis) = .ok last := by
    rw [List.foldlM_cons, hlast]
    rfl
  obtain ⟨w, hw, hp, -⟩ := StagedText.exists_workflow hrun (by simp)
  obtain ⟨c, hc, -, -, hhead, -⟩ := hall _ last hrun {} "Help Desk" stagedText w hw hp
  obtain ⟨c', hc', hpatterns⟩ := StagedText.strongestHybrid
  obtain rfl := Option.some.inj (hc.symm.trans hc')
  refine ⟨hink, _, last, w, hfirst, hlast, hw, hp, ?_⟩
  rw [← hprimary]
  refine hhead.mpr ?_
  rw [hprimary, hpatterns]
  decide

/-- The workflow that is built for the text is composed without the best pattern, and, once another
pattern has been forced, without that one. -/
theorem promotes_without_primary :
    ∃ first last : Recommendation Float32, standardRecommender.recommend stagedText = .ok first ∧
      [({ forcePattern := some "STRUCTURED_OUTPUT" } : Overrides)].foldlM Recommendation.override
        first = .ok last ∧
      first.primary = .workflow ∧ last.primary = .structuredOutput ∧
        ∀ r ∈ [first, last], ∃ w, r.workflow {} true "Help Desk" stagedText = .ok w ∧
          w.pattern = .hybrid ∧ w.basePatterns = [.rag, .agent] := by
  obtain ⟨last, hlast, hprimary⟩ :=
    Recommendation.exists_force (standardRecommender.ofAnalysis StagedText.analysis)
      (by decide : Pattern.parse? "STRUCTURED_OUTPUT" = some .structuredOutput) rfl
  have hrun : [({ forcePattern := some "STRUCTURED_OUTPUT" } : Overrides)].foldlM
      Recommendation.override (standardRecommender.ofAnalysis StagedText.analysis) = .ok last := by
    rw [List.foldlM_cons, hlast]
    rfl
  refine ⟨_, last, StagedText.recommend_eq, hrun, StagedText.primary, hprimary, ?_⟩
  rw [List.forall_mem_cons, List.forall_mem_singleton]
  constructor
  · have hnone : [].foldlM Recommendation.override
        (standardRecommender.ofAnalysis StagedText.analysis) = .ok _ := rfl
    obtain ⟨w, hw, hp, hbase⟩ := StagedText.exists_workflow hnone (by simp)
    refine ⟨w, hw, hp, ?_⟩
    rw [hbase, StagedText.primary]
    decide
  · obtain ⟨w, hw, hp, hbase⟩ := StagedText.exists_workflow hrun (by simp)
    refine ⟨w, hw, hp, ?_⟩
    rw [hbase, hprimary]
    decide

end AgentFlow
