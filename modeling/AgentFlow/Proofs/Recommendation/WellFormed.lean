import AgentFlow.Proofs.Data.SortedMaps
import AgentFlow.Proofs.Recommendation.Patterns
import AgentFlow.Proofs.Scoring.Exact
import AgentFlow.Proofs.Scoring.Ranking
import Mathlib.Tactic.Linarith

/-!
# Well-formed recommendations

A recommendation says the same thing in several places: what it contains follows from its pattern
and its scaffold, and its interface from the features that are left out.  Every correction has to
change all these places.

* `Recommendation.WellFormed`: the places agree.
* `Recommender.wellFormed_ofAnalysis`: they do at first, and `Recommendation.WellFormed.override`:
  an accepted correction keeps it so.
* `Recommendation.confidence_override`: a correction never raises the confidence, and a forced
  pattern has at most eight tenths of it, as far as scores are exact.
* `Recommender.recommend_wellFormed`: **all this holds after any corrections, accepted or refused.**
-/

namespace AgentFlow

open Data

variable {α : Type}

namespace Recommendation

/-- What a recommendation says in several places agrees. -/
structure WellFormed (r : Recommendation α) : Prop where
  primary : r.primary ∈ Pattern.base
  secondary : ∀ p ∈ r.secondary, p ∈ Pattern.base
  nodup_secondary : r.secondary.Nodup
  primary_notMem : r.primary ∉ r.secondary
  simplify_iff : r.customizations.simplify = true ↔ r.customizations.scaffold ≠ none
  named : "" ∉ r.customizations.disabledFeatures
  nodup_features : r.customizations.disabledFeatures.Nodup
  fastApi : fastApiFeature ∈ r.customizations.disabledFeatures → r.suggestions.fastApi = false
  ofScaffold : ∀ s, r.customizations.scaffold = some s →
    r.suggestions.estimatedNodes = (Catalog.scaffoldNodes s).length ∧
      r.suggestions.utilities = (Catalog.scaffoldUtilities s).map (·.name)
  ofPattern : r.customizations.scaffold = none →
    r.suggestions.estimatedNodes = (Catalog.nodes r.primary).length ∧
      r.suggestions.utilities = (Catalog.utilities r.primary).map (·.name)

end Recommendation

namespace Suggestions

variable {p : Pattern} {scaffold : Option Scaffold} {complexity : Complexity} {fastApi : Bool}

theorem for_of_scaffold {s : Scaffold} (h : scaffold = some s) :
    (Suggestions.for p scaffold complexity fastApi).estimatedNodes =
        (Catalog.scaffoldNodes s).length ∧
      (Suggestions.for p scaffold complexity fastApi).utilities =
        (Catalog.scaffoldUtilities s).map (·.name) := by
  subst h
  exact ⟨rfl, rfl⟩

theorem for_of_pattern (h : scaffold = none) :
    (Suggestions.for p scaffold complexity fastApi).estimatedNodes = (Catalog.nodes p).length ∧
      (Suggestions.for p scaffold complexity fastApi).utilities =
        (Catalog.utilities p).map (·.name) := by
  subst h
  exact ⟨rfl, rfl⟩

end Suggestions

/-! ### The first recommendation -/

namespace Scores

variable [Scale α] (s : Scores α)

/-- A pattern is ranked once. -/
theorem nodup_ranked : (s.ranked.map (·.1)).Nodup :=
  (s.ranked_perm.map _).nodup_iff.mpr s.ofPattern.nodup_keys

end Scores

namespace Recommender

variable [Scale α] (r : Recommender α)

theorem secondary_sublist (s : Scores α) (primary : Pattern) :
    (r.secondary s primary).Sublist (s.ranked.map (·.1)) :=
  List.filter_sublist.map _

theorem primary_notMem_secondary (s : Scores α) (primary : Pattern) :
    primary ∉ r.secondary s primary := by
  intro h
  obtain ⟨e, he, heq⟩ := List.mem_map.mp h
  obtain ⟨-, hne⟩ := List.mem_filter.mp he
  rw [Bool.and_eq_true, bne_iff_ne] at hne
  exact hne.1 heq

/-- **The recommendation for an analysis is well formed.** -/
theorem wellFormed_ofAnalysis (a : Analysis) : (r.ofAnalysis a).WellFormed where
  primary := (Pattern.isBase_iff_mem _).mp (r.sound_ofAnalysis a).primary
  secondary p hp := by
    obtain ⟨e, he, rfl⟩ := List.mem_map.mp ((r.secondary_sublist _ _).subset hp)
    exact (Pattern.isBase_iff_mem _).mp
      (r.scorer.onlyBase_score a e ((r.scorer.score a).ranked_perm.mem_iff.mp he))
  nodup_secondary := (r.scorer.score a).nodup_ranked.sublist (r.secondary_sublist _ _)
  primary_notMem := r.primary_notMem_secondary _ _
  simplify_iff := Option.isSome_iff_ne_none
  named := List.not_mem_nil
  nodup_features := List.nodup_nil
  fastApi h := absurd h List.not_mem_nil
  ofScaffold _ := Suggestions.for_of_scaffold
  ofPattern := Suggestions.for_of_pattern

end Recommender

/-! ### Corrections -/

namespace Recommendation

open Overrides

variable [Scale α] {r t : Recommendation α} {o : Overrides}

/-- **An accepted correction keeps a recommendation well formed.** -/
theorem WellFormed.override (h : r.WellFormed) (ht : r.override o = .ok t) : t.WellFormed := by
  obtain ⟨forced, features, hforced, hfeatures, rfl⟩ := override_eq_ok_iff.mp ht
  obtain ⟨-, hnamed⟩ := features_eq_ok_iff.mp hfeatures
  obtain ⟨remarks, hcorrect⟩ := exists_correct_eq r forced o.size features
  rw [hcorrect]
  exact {
    primary := by
      cases hp : forced with
      | none => exact h.primary
      | some p =>
        obtain ⟨-, -, -, hbase⟩ := forced_eq_some_iff.mp (hp ▸ hforced)
        exact (Pattern.isBase_iff_mem p).mp hbase
    secondary := by
      intro p hp
      cases forced with
      | none => exact h.secondary p hp
      | some q => exact h.secondary p (List.mem_filter.mp hp).1
    nodup_secondary := by
      cases forced with
      | none => exact h.nodup_secondary
      | some q => exact h.nodup_secondary.filter _
    primary_notMem := by
      cases forced with
      | none => exact h.primary_notMem
      | some q =>
        intro hq
        exact bne_iff_ne.mp (List.mem_filter.mp hq).2 rfl
    simplify_iff := by
      cases o.size with
      | none => exact h.simplify_iff
      | some size => exact Option.isSome_iff_ne_none
    named := by
      rw [mem_foldl_addNew, not_or]
      exact ⟨h.named, hnamed⟩
    nodup_features := nodup_foldl_addNew h.nodup_features
    fastApi := by
      intro hf
      show (r.suggestions.fastApi && !features.contains fastApiFeature) = false
      rcases mem_foldl_addNew.mp hf with hf | hf
      · rw [h.fastApi hf, Bool.false_and]
      · rw [List.contains_iff_mem.mpr hf, Bool.not_true, Bool.and_false]
    ofScaffold := fun _ => Suggestions.for_of_scaffold
    ofPattern := Suggestions.for_of_pattern }

/-- A correction adds remarks to the rationale. -/
theorem exists_rationale_override (ht : r.override o = .ok t) :
    ∃ remarks, t.rationale = r.rationale ++ remarks := by
  obtain ⟨forced, features, -, -, rfl⟩ := override_eq_ok_iff.mp ht
  obtain ⟨remarks, hcorrect⟩ := exists_correct_eq r forced o.size features
  exact ⟨remarks, by rw [hcorrect]⟩

end Recommendation

/-! ### Confidence -/

section

variable [Scale α] {K : Type} [Field K] [LinearOrder K] [IsStrictOrderedRing K] {value : α → K}

theorem Scale.Exact.ambiguityPenalty (exact : Scale.Exact value) :
    value Recommender.ambiguityPenalty = 9 / 10 := by
  rw [Recommender.ambiguityPenalty, exact.hundredths]
  norm_num

theorem Scale.Exact.forcedFactor (exact : Scale.Exact value) :
    value Recommendation.forcedFactor = 9 / 10 := by
  rw [Recommendation.forcedFactor, exact.hundredths]
  norm_num

theorem Scale.Exact.forcedCeiling (exact : Scale.Exact value) :
    value Recommendation.forcedCeiling = 8 / 10 := by
  rw [Recommendation.forcedCeiling, exact.hundredths]
  norm_num

/-- The confidence in a choice is not negative, since only a score above nothing is chosen. -/
theorem Recommender.confidence_choose (exact : Scale.Exact value) (r : Recommender α) (a : Analysis)
    (s : Scores α) : 0 ≤ value (r.choose a s).confidence := by
  rw [Recommender.choose]
  cases hp : s.primary? with
  | none => exact exact.zero.ge
  | some e =>
    obtain ⟨p, best⟩ := e
    obtain ⟨-, hpositive⟩ := Option.filter_eq_some_iff.mp hp
    have hbest : 0 < value best := exact.zero ▸ (exact.lt_iff _ _).mp hpositive
    dsimp only
    cases r.closeSecond? s.ranked best with
    | none => exact hbest.le
    | some second =>
      show 0 ≤ value (Scale.mul best ambiguityPenalty)
      rw [exact.mul, exact.ambiguityPenalty]
      linarith

namespace Recommendation

variable {r t : Recommendation α} {o : Overrides}

/-- **A correction never raises the confidence,** and a forced pattern has at most eight tenths. -/
theorem confidence_override (exact : Scale.Exact value) (h : 0 ≤ value r.confidence)
    (ht : r.override o = .ok t) :
    0 ≤ value t.confidence ∧ value t.confidence ≤ value r.confidence ∧
      (o.forcePattern ≠ none → value t.confidence ≤ 8 / 10) := by
  obtain ⟨forced, features, hforced, -, rfl⟩ := override_eq_ok_iff.mp ht
  obtain ⟨remarks, hcorrect⟩ := exists_correct_eq r forced o.size features
  rw [hcorrect]
  dsimp only
  cases hp : forced with
  | none =>
    rw [hp, Overrides.forced_eq_none_iff] at hforced
    exact ⟨h, le_rfl, fun hne => absurd hforced hne⟩
  | some p =>
    show 0 ≤ value (Scale.min (Scale.mul r.confidence forcedFactor) forcedCeiling) ∧
      value (Scale.min (Scale.mul r.confidence forcedFactor) forcedCeiling) ≤ value r.confidence ∧
      (_ → value (Scale.min (Scale.mul r.confidence forcedFactor) forcedCeiling) ≤ 8 / 10)
    rw [exact.min, exact.mul, exact.forcedFactor, exact.forcedCeiling]
    -- A factor below one lowers the confidence only because this is not negative.
    refine ⟨?nonneg, ?falls, fun _ => min_le_right _ _⟩
    case nonneg => exact le_min (by linarith) (by norm_num)
    case falls =>
      calc min (value r.confidence * (9 / 10)) (8 / 10)
          ≤ value r.confidence * (9 / 10) := min_le_left _ _
        _ ≤ value r.confidence := by linarith

end Recommendation

end

/-! ### Corrections one after another -/

namespace Recommendation

variable [Scale α]

/-- The recommendation after a correction in place, be it accepted or refused. -/
def attempt (r : Recommendation α) (o : Overrides) : Recommendation α := ((amend o).run r).2

def accepts (r : Recommendation α) (o : Overrides) : Prop := ((amend o).run r).1 = .ok ()

/-- The recommendation after corrections one after another. -/
def attemptAll (r : Recommendation α) (os : List Overrides) : Recommendation α := os.foldl attempt r

variable {r : Recommendation α} {o : Overrides}

theorem attempt_cases (r : Recommendation α) (o : Overrides) :
    (¬ r.accepts o ∧ r.attempt o = r) ∨ (r.accepts o ∧ r.override o = .ok (r.attempt o)) := by
  rw [accepts, attempt, run_amend]
  cases r.override o with
  | error f => exact .inl ⟨nofun, rfl⟩
  | ok t => exact .inr ⟨rfl, rfl⟩

theorem attemptAll_append (before after : List Overrides) :
    r.attemptAll (before ++ after) = (r.attemptAll before).attemptAll after :=
  List.foldl_append

/-- What every accepted correction keeps holds after all of them. -/
theorem attemptAll_induction {P : Recommendation α → Prop}
    (step : ∀ {r t : Recommendation α} {o}, P r → r.override o = .ok t → P t) (h : P r)
    (os : List Overrides) : P (r.attemptAll os) := by
  induction os generalizing r with
  | nil => exact h
  | cons o rest ih =>
    rcases attempt_cases r o with ⟨-, hsame⟩ | ⟨-, ht⟩
    · exact ih (hsame.symm ▸ h)
    · exact ih (step h ht)

theorem exists_rationale_attemptAll (r : Recommendation α) (os : List Overrides) :
    ∃ remarks, (r.attemptAll os).rationale = r.rationale ++ remarks := by
  refine attemptAll_induction (P := fun t => ∃ remarks, t.rationale = r.rationale ++ remarks) ?_
    ⟨"", String.append_empty.symm⟩ os
  intro s t o ⟨remarks, hs⟩ ht
  obtain ⟨more, hmore⟩ := exists_rationale_override ht
  exact ⟨remarks ++ more, by rw [hmore, hs, String.append_assoc]⟩

variable {K : Type} [Field K] [LinearOrder K] [IsStrictOrderedRing K] {value : α → K}

theorem confidence_attemptAll (exact : Scale.Exact value) (h : 0 ≤ value r.confidence)
    (os : List Overrides) :
    0 ≤ value (r.attemptAll os).confidence ∧
      value (r.attemptAll os).confidence ≤ value r.confidence := by
  refine attemptAll_induction
    (P := fun t => 0 ≤ value t.confidence ∧ value t.confidence ≤ value r.confidence) ?_
    ⟨h, le_rfl⟩ os
  intro s t o ⟨hs, hsr⟩ ht
  obtain ⟨hnonneg, hfalls, -⟩ := confidence_override exact hs ht
  exact ⟨hnonneg, hfalls.trans hsr⟩

/-- Once a pattern has been forced, the confidence stays at eight tenths or below. -/
theorem confidence_attemptAll_of_forced (exact : Scale.Exact value) (h : 0 ≤ value r.confidence)
    (ho : r.accepts o) (hforced : o.forcePattern ≠ none) (os : List Overrides) :
    value (r.attemptAll (o :: os)).confidence ≤ 8 / 10 := by
  rcases attempt_cases r o with ⟨hrefused, -⟩ | ⟨-, ht⟩
  · exact absurd ho hrefused
  · obtain ⟨hnonneg, -, hceiling⟩ := confidence_override exact h ht
    exact (confidence_attemptAll exact hnonneg os).2.trans (hceiling hforced)

end Recommendation

/-- **A recommendation stays well formed whatever a user corrects in it.**  For every text, after
any corrections in any order, accepted or refused: the parts of the recommendation agree, its
rationale goes on from every earlier one, and, as far as scores are exact, its confidence is at most
every earlier one, and at most eight tenths once a pattern has been forced. -/
theorem Recommender.recommend_wellFormed [Scale α] (r : Recommender α) {text : String}
    (h : Text.hasInk text = true) :
    ∃ first, r.recommend text = .ok first ∧
      ∀ before after : List Overrides,
        let earlier := first.attemptAll before
        let later := first.attemptAll (before ++ after)
        later.WellFormed ∧ (∃ remarks, later.rationale = earlier.rationale ++ remarks) ∧
          ∀ {K : Type} [Field K] [LinearOrder K] [IsStrictOrderedRing K] (value : α → K),
            Scale.Exact value →
              value later.confidence ≤ value earlier.confidence ∧
              ∀ o rest, after = o :: rest → earlier.accepts o → o.forcePattern ≠ none →
                value later.confidence ≤ 8 / 10 := by
  refine ⟨r.ofAnalysis (.ofText text r.stage), by rw [recommend, if_pos h], ?_⟩
  intro before after earlier later
  have hlater : later = earlier.attemptAll after := Recommendation.attemptAll_append before after
  refine ⟨?_, ?_, ?_⟩
  · exact Recommendation.attemptAll_induction Recommendation.WellFormed.override
      (r.wellFormed_ofAnalysis _) _
  · rw [hlater]
    exact Recommendation.exists_rationale_attemptAll earlier after
  · intro K _ _ _ value exact
    have hfirst := r.confidence_choose exact (.ofText text r.stage)
      (r.scorer.score (.ofText text r.stage))
    have hearlier : 0 ≤ value earlier.confidence :=
      (Recommendation.confidence_attemptAll exact hfirst before).1
    rw [hlater]
    refine ⟨(Recommendation.confidence_attemptAll exact hearlier after).2, ?_⟩
    rintro o rest rfl ho hforced
    exact Recommendation.confidence_attemptAll_of_forced exact hearlier ho hforced rest

/-- With exact scores: one correction is accepted, and one is refused. -/
theorem recommend_wellFormed_rational :
    Text.hasInk "Answer questions" = true ∧
      ∃ (r : Recommender ℚ) (first : Recommendation ℚ), r.recommend "Answer questions" = .ok first ∧
        let later := first.attemptAll
          [{ forcePattern := some "TOOL" }, { forcePattern := some "HYBRID" }]
        later.primary = .tool ∧ later.WellFormed ∧ later.confidence ≤ first.confidence ∧
          later.confidence ≤ 8 / 10 := by
  have hink : Text.hasInk "Answer questions" = true := by decide
  let r : Recommender ℚ :=
    { scorer := { normalize := fun raw => if 0 < raw then 1 / 2 else 0, threshold := 45 / 100 }
      stage := .createSpec
      secondaryThreshold := 3 / 10
      ambiguityRatio := 85 / 100
      fastApi := true }
  obtain ⟨first, hfirst, hall⟩ := r.recommend_wellFormed hink
  obtain ⟨hwell, -, hconfidence⟩ :=
    hall [] [{ forcePattern := some "TOOL" }, { forcePattern := some "HYBRID" }]
  obtain ⟨hfalls, hceiling⟩ := hconfidence id Scale.exact_rational
  exact ⟨hink, r, first, hfirst, rfl, hwell, hfalls, hceiling _ _ rfl rfl nofun⟩

end AgentFlow
