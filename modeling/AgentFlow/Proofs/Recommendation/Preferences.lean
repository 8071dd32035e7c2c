import AgentFlow.Proofs.Recommendation.Replay
import AgentFlow.Proofs.Scoring.Exact

/-!
# One preferred size after another

A preference for the small scaffold changes the scaffold, the mark for it, and how demanding the
requirement is taken to be.  A later preference for the full workflow takes the first two back, but
nothing remembers the third.

* `Recommendation.sizing`: the three places that a preference is about.
* `Sizing.run`: how preferences one after another change them; `Sizing.run_concat_full` is the run
  that ends with a preference for the full workflow.
* `Recommendation.sizing_forM_amend`: corrections change them by their preferences only.
* `Recommender.lastSize_full_iff`: **the last preference for the full workflow does what it would do
  alone, apart from the complexity that an earlier preference has lowered.**
-/

namespace AgentFlow

structure Sizing where
  scaffold : Option Scaffold
  simplify : Bool
  complexity : Complexity
  deriving DecidableEq

def Recommendation.sizing {α : Type} (r : Recommendation α) : Sizing where
  scaffold := r.customizations.scaffold
  simplify := r.customizations.simplify
  complexity := r.suggestions.complexity

def statedSizes (os : List Overrides) : List SizePreference := os.filterMap (·.size)

/-! ### Preferences one after another -/

namespace Sizing

def prefer (z : Sizing) (size : SizePreference) : Sizing where
  scaffold := size.scaffold
  simplify := size.scaffold.isSome
  complexity := size.complexity z.complexity

/-- What preferences one after another make of it. -/
def run (z : Sizing) (sizes : List SizePreference) : Sizing := sizes.foldl prefer z

/-- A complexity that was lowered stays so. -/
theorem complexity_run (z : Sizing) (sizes : List SizePreference) :
    (z.run sizes).complexity = if .simple ∈ sizes then .simple else z.complexity := by
  induction sizes generalizing z with
  | nil => rfl
  | cons size rest ih =>
    rw [run, List.foldl_cons, ← run, ih]
    cases size with
    | simple => simp [prefer, SizePreference.complexity]
    | full => simp [prefer, SizePreference.complexity]

/-- A run that ends with a preference for the full workflow. -/
theorem run_concat_full (z : Sizing) (sizes : List SizePreference) :
    z.run (sizes ++ [.full]) =
      ⟨none, false, if .simple ∈ sizes then .simple else z.complexity⟩ := by
  rw [run, List.foldl_append, ← run, ← complexity_run]
  rfl

end Sizing

/-! ### Corrections -/

namespace Recommendation

open Overrides

variable {α : Type} [Scale α] {r t : Recommendation α}

/-- A correction changes the size by its preference only. -/
theorem sizing_override {o : Overrides} (ht : r.override o = .ok t) :
    t.sizing = r.sizing.run o.size.toList := by
  obtain ⟨forced, features, -, -, rfl⟩ := override_eq_ok_iff.mp ht
  obtain ⟨remarks, hcorrect⟩ := exists_correct_eq r forced o.size features
  rw [hcorrect]
  cases o.size <;> rfl

theorem statedSizes_cons (o : Overrides) (os : List Overrides) :
    statedSizes (o :: os) = o.size.toList ++ statedSizes os := by
  rw [statedSizes, List.filterMap_cons]
  cases o.size <;> rfl

/-- Corrections one after another change the size by their preferences only. -/
theorem sizing_forM_amend {os : List Overrides} (ht : (os.forM amend).run r = (.ok (), t)) :
    t.sizing = r.sizing.run (statedSizes os) := by
  rw [run_forM_amend_eq_ok_iff] at ht
  induction os generalizing r with
  | nil =>
    obtain rfl := Except.ok.inj ht
    rfl
  | cons o rest ih =>
    rw [List.foldlM_cons, InPlace.bind_eq_ok_iff] at ht
    obtain ⟨next, ho, hrest⟩ := ht
    rw [ih hrest, sizing_override ho, statedSizes_cons, Sizing.run, Sizing.run, ← List.foldl_append]
    rfl

/-- A preference for the full workflow can always be stated alone. -/
theorem run_amend_full (r : Recommendation α) :
    ∃ alone, (amend { size := some .full }).run r = (.ok (), alone) ∧
      alone.sizing = ⟨none, false, r.suggestions.complexity⟩ := by
  have halone : r.override { size := some .full } = .ok (r.correct none (some .full) []) := rfl
  refine ⟨_, by rw [run_amend, halone], ?_⟩
  rw [sizing_override halone]
  rfl

end Recommendation

/-- **The last preference for the full workflow does what it would do alone, unless an earlier
preference has lowered the complexity.**  For every text and any accepted corrections whose last
stated preference is the full workflow: the scaffold and the mark for it are those of that
preference alone, and the complexity is, too, exactly if it was simple from the start or the small
scaffold was never preferred. -/
theorem Recommender.lastSize_full_iff {α : Type} [Scale α] (r : Recommender α) {text : String}
    (h : Text.hasInk text = true) :
    ∃ first alone, r.recommend text = .ok first ∧
      (Recommendation.amend { size := some .full }).run first = (.ok (), alone) ∧
      ∀ os t, (os.forM Recommendation.amend).run first = (.ok (), t) →
        (statedSizes os).getLast? = some .full →
          t.customizations.scaffold = alone.customizations.scaffold ∧
          t.customizations.simplify = alone.customizations.simplify ∧
          (t.suggestions.complexity = alone.suggestions.complexity ↔
            first.suggestions.complexity = .simple ∨ ∀ o ∈ os, o.size ≠ some .simple) := by
  obtain ⟨first, hfirst⟩ : ∃ first, r.recommend text = .ok first :=
    ⟨_, by rw [recommend, if_pos h]⟩
  obtain ⟨alone, hrun, hsizing⟩ := first.run_amend_full
  refine ⟨first, alone, hfirst, hrun, ?_⟩
  intro os t ht hlast
  obtain ⟨sizes, hsizes⟩ := List.getLast?_eq_some_iff.mp hlast
  have hafter := Recommendation.sizing_forM_amend ht
  rw [hsizes, Sizing.run_concat_full] at hafter
  have hsimple : .simple ∈ sizes ↔ ∃ o ∈ os, o.size = some .simple := by
    have hmem : SizePreference.simple ∈ statedSizes os ↔ .simple ∈ sizes := by
      rw [hsizes, List.mem_append, List.mem_singleton]
      simp
    rw [← hmem, statedSizes, List.mem_filterMap]
  obtain ⟨hscaffold, hmark, hcomplexity⟩ := Sizing.mk.inj hafter
  obtain ⟨hscaffold', hmark', hcomplexity'⟩ := Sizing.mk.inj hsizing
  refine ⟨hscaffold.trans hscaffold'.symm, hmark.trans hmark'.symm, ?_⟩
  rw [hcomplexity, hcomplexity']
  change (if _ then _ else first.suggestions.complexity) = first.suggestions.complexity ↔ _
  split
  · next hmem =>
    obtain ⟨o, ho, hsize⟩ := hsimple.mp hmem
    exact ⟨fun heq => .inl heq.symm, fun hor => hor.elim Eq.symm fun hnever =>
      absurd hsize (hnever o ho)⟩
  · next hmem =>
    exact ⟨fun _ => .inr fun o ho hsize => hmem (hsimple.mpr ⟨o, ho, hsize⟩), fun _ => rfl⟩

/-- The small scaffold, then the full workflow: the complexity stays lowered. -/
theorem lastSize_full_stepByStep :
    Text.hasInk "Answer questions step by step" = true ∧
      ∃ (r : Recommender ℚ) (first alone t : Recommendation ℚ),
        let os : List Overrides := [{ size := some .simple }, { size := some .full }]
        r.recommend "Answer questions step by step" = .ok first ∧
          (Recommendation.amend { size := some .full }).run first = (.ok (), alone) ∧
          (os.forM Recommendation.amend).run first = (.ok (), t) ∧
          (statedSizes os).getLast? = some .full ∧
          t.customizations.scaffold = alone.customizations.scaffold ∧
          t.suggestions.complexity ≠ alone.suggestions.complexity := by
  have hink : Text.hasInk "Answer questions step by step" = true := by decide
  let r : Recommender ℚ :=
    { scorer := { normalize := fun raw => if 0 < raw then 1 / 2 else 0, threshold := 45 / 100 }
      stage := .createSpec
      secondaryThreshold := 3 / 10
      ambiguityRatio := 85 / 100
      fastApi := true }
  let os : List Overrides := [{ size := some .simple }, { size := some .full }]
  obtain ⟨first, alone, hfirst, halone, hall⟩ := r.lastSize_full_iff hink
  have hrun : ∃ t, (os.forM Recommendation.amend).run first = (.ok (), t) := ⟨_, rfl⟩
  obtain ⟨t, ht⟩ := hrun
  obtain ⟨hscaffold, -, hcomplexity⟩ := hall os t ht rfl
  refine ⟨hink, r, first, alone, t, hfirst, halone, ht, rfl, hscaffold, fun hsame => ?_⟩
  rcases hcomplexity.mp hsame with hsimple | hnever
  · rw [Recommender.recommend, if_pos hink] at hfirst
    obtain rfl := Except.ok.inj hfirst
    have hlevel : (Analysis.ofText "Answer questions step by step" .createSpec).signals.level =
        .moderate := by
      decide +kernel
    exact absurd (hlevel.symm.trans hsimple) nofun
  · exact hnever _ List.mem_cons_self rfl

end AgentFlow
