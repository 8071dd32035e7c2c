import AgentFlow.Proofs.Data.SortedMaps
import AgentFlow.Proofs.Text.LowerCase
import AgentFlow.Requirement.Analysis

/-!
# Readings of longer texts

An analysis finds the phrases of its tables in the lower-case form of a text.  No phrase of the
tables has a sigma (`sigmaFree_phrasesFor`, `sigmaFree_signTables`), so what is found in a text is
found in every text around it, and the signs of a longer text are at least as many.  The level is
monotone in its three signs together: fewer of them leave a simple requirement simple, and more of
them leave a complex one complex.

* `matched_evidenceFor`: what is found for a pattern, in every stage.
* `phrasesIn_sublist`: what is found in a text is found in every text around it.
* `Signals.Within.rank_level_le`: more signs make no lower level.
* `ofText_append`: **nothing that an analysis finds is lost when text is added to either side.**
* `ofText_monotone`: **analyses are monotone in the text, blind to the case of letters, and find the
  same in every stage.**
-/

namespace AgentFlow

open Text Data

/-! ### Levels -/

theorem Complexity.rank_le {a b : Complexity} (hsimple : b = .simple → a = .simple)
    (hcomplex : a = .complex → b = .complex) : a.rank ≤ b.rank := by
  cases b with
  | simple => rw [hsimple rfl]
  | moderate =>
    cases a with
    | complex => exact absurd (hcomplex rfl) Complexity.noConfusion
    | _ => decide
  | complex => cases a <;> decide

namespace Signals

variable {s s' : Signals}

theorem level_eq_simple_iff : s.level = .simple ↔
    s.technicalTerms.length ≤ 1 ∧ s.integrationPhrases = 0 ∧ s.multiStep = false := by
  unfold level
  grind

theorem level_eq_complex_iff : s.level = .complex ↔
    4 ≤ s.technicalTerms.length ∨ 2 ≤ s.integrationPhrases ∨
      (s.multiStep = true ∧ 2 ≤ s.technicalTerms.length) := by
  unfold level
  grind

structure Within (s s' : Signals) : Prop where
  technicalTerms : s.technicalTerms.Sublist s'.technicalTerms
  integrationPhrases : s.integrationPhrases ≤ s'.integrationPhrases
  multiStep : s.multiStep = true → s'.multiStep = true
  simplicityMarkers : s.simplicityMarkers.Sublist s'.simplicityMarkers

/-- **More signs make no lower level.** -/
theorem Within.rank_level_le (h : s.Within s') : s.level.rank ≤ s'.level.rank := by
  have hterms := h.technicalTerms.length_le
  have hintegration := h.integrationPhrases
  have hsteps := h.multiStep
  apply Complexity.rank_le
  · rw [level_eq_simple_iff, level_eq_simple_iff]
    grind
  · rw [level_eq_complex_iff, level_eq_complex_iff]
    grind

end Signals

namespace Analysis

/-! ### What is found -/

/-- The phrases that speak for a pattern; none speaks for a composed one. -/
def phrasesFor (p : Pattern) : List String :=
  ((indicatorTable? p).map fun table => table.indicators.map (·.phrase)).getD []

def signTables : List (List String) :=
  [technicalTerms, integrationPhrases, multiStepPhrases, simplicityMarkers, apiVocabulary,
    etlVocabulary]

def evidenceFor (a : Analysis) (p : Pattern) : Evidence := (a.evidence.get? p).getD {}

theorem sigmaFree_phrasesFor (p : Pattern) : ∀ phrase ∈ phrasesFor p, SigmaFree phrase := by
  cases p <;> decide +kernel

theorem sigmaFree_signTables :
    ∀ phrases ∈ signTables, ∀ phrase ∈ phrases, SigmaFree phrase := by
  decide +kernel

theorem get?_evidence (text : String) (stage : Stage) (p : Pattern) :
    (ofText text stage).evidence.get? p =
      (indicatorTable? p).map (evidenceIn (lower text) stage) := by
  cases p <;> rfl

theorem matched_evidenceIn (text : String) (stage : Stage) (table : IndicatorTable) :
    (evidenceIn text stage table).matched = phrasesIn text (table.indicators.map (·.phrase)) := by
  rw [phrasesIn, List.filter_map]
  rfl

/-- **What is found for a pattern are the phrases of its table in the lower-case text.** -/
theorem matched_evidenceFor (text : String) (stage : Stage) (p : Pattern) :
    ((ofText text stage).evidenceFor p).matched = phrasesIn (lower text) (phrasesFor p) := by
  rw [evidenceFor, get?_evidence, phrasesFor]
  cases indicatorTable? p with
  | none => rfl
  | some table => exact matched_evidenceIn (lower text) stage table

theorem hits_evidenceFor (text : String) (stage : Stage) (p : Pattern) :
    ((ofText text stage).evidenceFor p).hits =
      ((ofText text stage).evidenceFor p).matched.length := by
  rw [evidenceFor, get?_evidence]
  cases indicatorTable? p with
  | none => rfl
  | some table => exact (List.length_map _).symm

/-! ### Longer texts -/

variable {phrases : List String}

/-- **What is found in a text is found in every text around it.** -/
theorem phrasesIn_sublist (h : ∀ phrase ∈ phrases, SigmaFree phrase) (u t v : String) :
    (phrasesIn (lower t) phrases).Sublist (phrasesIn (lower (u ++ t ++ v)) phrases) := by
  -- What is found in the text is what the search in it leaves of what is found in the longer text.
  have hagain : phrasesIn (lower t) phrases =
      (phrasesIn (lower (u ++ t ++ v)) phrases).filter (contains (lower t)) := by
    rw [phrasesIn, phrasesIn, List.filter_filter]
    refine List.filter_congr fun phrase hphrase => ?_
    rw [Bool.eq_iff_iff, Bool.and_eq_true]
    exact ⟨fun hfound => ⟨hfound, contains_lower_append (h phrase hphrase) u v hfound⟩, And.left⟩
  rw [hagain]
  exact List.filter_sublist

/-- Any phrase of a table occurs if there is one among those that are found. -/
theorem anyIn_iff {text : String} : anyIn text phrases = true ↔ phrasesIn text phrases ≠ [] := by
  rw [anyIn, phrasesIn, List.any_eq_true, Ne, List.filter_eq_nil_iff]
  push Not
  rfl

/-- The phrases are keys of a map, so they stand in the order of texts. -/
theorem technicalTerms_eq (text : String) : (signalsIn text).technicalTerms =
    (SortedMap.ofList ((phrasesIn text technicalTerms).map (·, ()))).keys := rfl

theorem mem_technicalTerms_iff {text term : String} :
    term ∈ (signalsIn text).technicalTerms ↔ term ∈ phrasesIn text technicalTerms := by
  rw [technicalTerms_eq, SortedMap.mem_keys_ofList, List.map_map]
  exact iff_of_eq (congrArg (term ∈ ·) (List.map_id _))

theorem technicalTerms_sublist {text text' : String}
    (h : phrasesIn text technicalTerms ⊆ phrasesIn text' technicalTerms) :
    (signalsIn text).technicalTerms.Sublist (signalsIn text').technicalTerms := by
  have hkeys : (signalsIn text).technicalTerms ⊆ (signalsIn text').technicalTerms := by
    intro term hterm
    exact mem_technicalTerms_iff.mpr (h (mem_technicalTerms_iff.mp hterm))
  rw [technicalTerms_eq, technicalTerms_eq] at hkeys ⊢
  exact SortedMap.keys_sublist hkeys

/-- Every sign in a text is a sign in every text around it. -/
theorem signalsIn_append (u t v : String) :
    (signalsIn (lower t)).Within (signalsIn (lower (u ++ t ++ v))) := by
  have hsign : ∀ phrases ∈ signTables,
      (phrasesIn (lower t) phrases).Sublist (phrasesIn (lower (u ++ t ++ v)) phrases) :=
    fun phrases hphrases => phrasesIn_sublist (sigmaFree_signTables phrases hphrases) u t v
  constructor
  case technicalTerms =>
    exact technicalTerms_sublist (hsign technicalTerms (by decide)).subset
  case integrationPhrases =>
    have hcount := (hsign integrationPhrases (by decide)).length_le
    simpa only [signalsIn] using hcount
  case multiStep =>
    simp only [signalsIn, anyIn_iff]
    intro hfound hnil
    exact hfound (List.sublist_nil.mp (hnil ▸ hsign multiStepPhrases (by decide)))
  case simplicityMarkers =>
    have hmarkers := hsign simplicityMarkers (by decide)
    simpa only [signalsIn] using hmarkers

structure Within (a b : Analysis) : Prop where
  matched : ∀ p, (a.evidenceFor p).matched.Sublist (b.evidenceFor p).matched
  hits : ∀ p, (a.evidenceFor p).hits ≤ (b.evidenceFor p).hits
  signals : a.signals.Within b.signals
  level : a.signals.level.rank ≤ b.signals.level.rank

/-- **Nothing that an analysis finds is lost when text is added to either side.** -/
theorem ofText_append (u t v : String) (stage : Stage) :
    (ofText t stage).Within (ofText (u ++ t ++ v) stage) := by
  have hmatched : ∀ p, ((ofText t stage).evidenceFor p).matched.Sublist
      ((ofText (u ++ t ++ v) stage).evidenceFor p).matched := by
    intro p
    rw [matched_evidenceFor, matched_evidenceFor]
    exact phrasesIn_sublist (sigmaFree_phrasesFor p) u t v
  have hhits : ∀ p, ((ofText t stage).evidenceFor p).hits ≤
      ((ofText (u ++ t ++ v) stage).evidenceFor p).hits := by
    intro p
    rw [hits_evidenceFor, hits_evidenceFor]
    exact (hmatched p).length_le
  have hsignals := signalsIn_append u t v
  exact ⟨hmatched, hhits, hsignals, hsignals.rank_level_le⟩

/-- **Analyses are monotone in the text, and neither the case of letters nor the stage plays a part
in what they find.**  Text on either side of a text takes nothing away from what is found for a
pattern, from the signs of complexity or from the level.  With letters of the alphabet in their
other case the whole analysis is the same.  The phrases that are found and the signs of complexity
are the same in every stage. -/
theorem ofText_monotone (u t v : String) (stage stage' : Stage) (places : Nat → Bool) :
    ((ofText t stage).Within (ofText (u ++ t ++ v) stage) ∧
        ∀ phrases ∈ signTables,
          (phrasesIn (lower t) phrases).Sublist (phrasesIn (lower (u ++ t ++ v)) phrases)) ∧
      ofText (recase places t) stage = ofText t stage ∧
      (ofText t stage).signals = (ofText t stage').signals ∧
      ∀ p, ((ofText t stage).evidenceFor p).matched =
        ((ofText t stage').evidenceFor p).matched := by
  refine ⟨⟨ofText_append u t v stage, fun phrases hphrases => ?_⟩, ?_, ?_, fun p => ?_⟩
  · exact phrasesIn_sublist (sigmaFree_signTables phrases hphrases) u t v
  · rw [ofText, lower_recase, ofText]
  · rw [ofText, ofText]
  · rw [matched_evidenceFor, matched_evidenceFor]

end Analysis

end AgentFlow
