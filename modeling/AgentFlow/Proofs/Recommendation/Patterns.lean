import AgentFlow.Proofs.Recommendation.Corrections

/-!
# The patterns of a recommendation

A recommendation names patterns that can be recommended, and its combinations are of two different
ones.  This holds of every recommendation that is made for a text, and corrections keep it, since a
user cannot force a composed pattern.

* `Scores.OnlyBase`: only base patterns have scores, whatever the evidence.
* `Recommendation.Sound`: the invariant.
* `Recommender.sound_ofAnalysis`: it holds at first, `Recommendation.Sound.override`: a correction
  keeps it, and `Recommendation.Sound.foldlM_override`: **so do corrections one after another.**
-/

namespace AgentFlow

open Data

variable {α : Type}

/-! ### Scores -/

namespace Scores

def OnlyBase (s : Scores α) : Prop := ∀ e ∈ s.ofPattern.entries, e.1.isBase = true

theorem OnlyBase.adjust {s : Scores α} (h : s.OnlyBase) (p : Pattern) (f : α → α) :
    (s.adjust p f).OnlyBase := by
  rw [Scores.adjust]
  split
  · next x hx =>
    intro e he
    rcases SortedMap.mem_insertInto he with rfl | he
    · exact h (p, x) ((SortedMap.get?_eq_some_iff _ _ _).mp hx)
    · exact h e he
  · exact h

theorem onlyBase_foldl {β : Type} {f : Scores α → β → Scores α}
    (hf : ∀ s b, s.OnlyBase → (f s b).OnlyBase) (items : List β) {s : Scores α}
    (h : s.OnlyBase) : (items.foldl f s).OnlyBase := by
  induction items generalizing s with
  | nil => exact h
  | cons b rest ih => exact ih (hf s b h)

theorem OnlyBase.isBase_primary [Scale α] {s : Scores α} (h : s.OnlyBase) {e : Pattern × α}
    (he : s.primary? = some e) : e.1.isBase = true := by
  obtain ⟨hhead, -⟩ := Option.filter_eq_some_iff.mp he
  exact h e (List.mem_mergeSort.mp (List.mem_of_mem_head? hhead))

end Scores

namespace Scorer

variable (r : Scorer α) (a : Analysis)

theorem onlyBase_plain : (r.plain a).OnlyBase := by
  intro e he
  obtain ⟨p, hp, rfl⟩ := List.mem_map.mp (SortedMap.mem_of_mem_ofList he)
  exact (Pattern.isBase_iff_mem p).mpr hp

variable [Scale α]

theorem onlyBase_damp {s : Scores α} (h : s.OnlyBase) (pair : Pattern × Pattern) :
    (r.damp s pair).OnlyBase := by
  rw [damp]
  simp only
  split
  · exact h.adjust _ _
  · exact h

/-- **Neither conflicts nor synergies give a score to another pattern.** -/
theorem onlyBase_score : (r.score a).OnlyBase := by
  have hdamped : (r.damped a).OnlyBase :=
    Scores.onlyBase_foldl (fun _ pair h => r.onlyBase_damp h pair) patternPairs (r.onlyBase_plain a)
  exact Scores.onlyBase_foldl (fun _ p h => h.adjust p raise) (r.raised (r.damped a)) hdamped

/-- A combination is of two base patterns, the earlier one first. -/
theorem patterns_of_mem_combinations {s : Scores α} {c : Combination α}
    (h : c ∈ (r.combinations s).values) :
    ∃ p q, (p, q) ∈ patternPairs ∧ c.patterns = [p, q] := by
  obtain ⟨e, he, rfl⟩ := List.mem_map.mp h
  obtain ⟨d, hd, rfl⟩ := List.mem_map.mp (SortedMap.mem_of_mem_ofList he)
  obtain ⟨⟨p, q⟩, hpair, hcombine⟩ := List.mem_filterMap.mp hd
  refine ⟨p, q, hpair, ?_⟩
  rw [combine?] at hcombine
  split at hcombine
  · obtain rfl := Option.some.inj hcombine
    rfl
  · exact absurd hcombine nofun

end Scorer

/-! ### Recommendations -/

/-- The recommended pattern is a base pattern, and every combination is of a pair of them. -/
structure Recommendation.Sound (r : Recommendation α) : Prop where
  primary : r.primary.isBase = true
  combinations : ∀ c ∈ r.customizations.combinations.values,
    ∃ p q, (p, q) ∈ patternPairs ∧ c.patterns = [p, q]

namespace Recommender

variable [Scale α] (r : Recommender α)

theorem isBase_choose (a : Analysis) {s : Scores α} (h : s.OnlyBase) :
    (r.choose a s).pattern.isBase = true := by
  rw [choose]
  split
  · rfl
  · next p best hp =>
    have hbase := h.isBase_primary hp
    simp only
    split <;> exact hbase

/-- **The recommendation for an analysis is sound.** -/
theorem sound_ofAnalysis (a : Analysis) : (r.ofAnalysis a).Sound where
  primary := r.isBase_choose a (r.scorer.onlyBase_score a)
  combinations := fun _ hc => r.scorer.patterns_of_mem_combinations hc

end Recommender

namespace Recommendation

variable {r : Recommendation α}

/-- What is sound depends on the pattern and the combinations only. -/
theorem Sound.of_eq {r' : Recommendation α} (h : r.Sound) (hp : r'.primary.isBase = true)
    (hc : r'.customizations.combinations = r.customizations.combinations) : r'.Sound where
  primary := hp
  combinations := by
    rw [hc]
    exact h.combinations

variable [Scale α]

/-- **An accepted correction keeps a recommendation sound.** -/
theorem Sound.override (h : r.Sound) {o : Overrides} {r' : Recommendation α}
    (ho : r.override o = .ok r') : r'.Sound := by
  obtain ⟨forced, features, hforced, -, rfl⟩ := override_eq_ok_iff.mp ho
  obtain ⟨remarks, hcorrect⟩ := exists_correct_eq r forced o.size features
  rw [hcorrect]
  refine h.of_eq ?_ rfl
  cases hp : forced with
  | none => exact h.primary
  | some p =>
    obtain ⟨-, -, -, hbase⟩ := Overrides.forced_eq_some_iff.mp (hp ▸ hforced)
    exact hbase

/-- **Corrections one after another keep a recommendation sound.** -/
theorem Sound.foldlM_override {os : List Overrides} {r' : Recommendation α} (h : r.Sound)
    (hos : os.foldlM Recommendation.override r = .ok r') : r'.Sound :=
  foldlM_override_induction (fun _ _ _ _ hr ho => hr.override ho) h hos

end Recommendation

end AgentFlow
