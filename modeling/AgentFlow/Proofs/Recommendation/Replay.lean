import AgentFlow.Proofs.Session.History

/-!
# Corrections made again

A session keeps the overrides that were accepted merged into one.  Made again at once, they lead to
the same decision as one after another: the last pattern and the last size win in both runs, and a
feature stands where it was first named.

* `Recommendation.decision`: what is generated for a recommendation.
* `Decision.correct`: how a correction changes the decision, whatever else the recommendation says.
* `Overrides.foldl_addNew_map`: merging drops features by their spelling, a correction by their
  name; the first of a name is kept either way.
* `Recommendation.exists_override_merge`: one more override, merged.
* `Recommendation.amend_mergeAll`: **all overrides at once lead to the same decision.**
-/

namespace AgentFlow

/-- What a recommendation decides about the workflow to be generated. -/
structure Decision where
  primary : Pattern
  scaffold : Option Scaffold
  simplify : Bool
  disabledFeatures : List String
  fastApi : Bool
  estimatedNodes : Nat
  utilities : List String
  deriving DecidableEq

/-- What a recommendation decides about the workflow to be generated. -/
def Recommendation.decision {α : Type} (r : Recommendation α) : Decision where
  primary := r.primary
  scaffold := r.customizations.scaffold
  simplify := r.customizations.simplify
  disabledFeatures := r.customizations.disabledFeatures
  fastApi := r.suggestions.fastApi
  estimatedNodes := r.suggestions.estimatedNodes
  utilities := r.suggestions.utilities

/-! ### Features of merged overrides -/

namespace Overrides

variable {o later : Overrides}

/-- An item that is spelled like an earlier one has its name, too. -/
theorem foldl_addNew_map_addNew (name : String → String) (known items : List String)
    (item : String) :
    ((addNew items item).map name).foldl addNew known =
      addNew ((items.map name).foldl addNew known) (name item) := by
  by_cases h : item ∈ items
  · have hitems : addNew items item = items := by simp [addNew, h]
    have hname : name item ∈ (items.map name).foldl addNew known :=
      mem_foldl_addNew.mpr (.inr (List.mem_map_of_mem h))
    rw [hitems, addNew, if_pos (List.contains_iff_mem.mpr hname)]
  · have hitems : addNew items item = items ++ [item] := by simp [addNew, h]
    rw [hitems, List.map_append, List.foldl_append]
    rfl

/-- Items that are merged by their spelling and then collected by their names are collected as if
they had not been merged. -/
theorem foldl_addNew_map (name : String → String) (known items more : List String) :
    ((more.foldl addNew items).map name).foldl addNew known =
      ((items ++ more).map name).foldl addNew known := by
  induction more generalizing items with
  | nil => rw [List.foldl_nil, List.append_nil]
  | cons item rest ih =>
    rw [List.foldl_cons, ih, List.map_append, List.foldl_append, foldl_addNew_map_addNew,
      List.map_append, List.map_cons, List.foldl_append, List.foldl_cons]

theorem contains_map_merge (name : String → String) (x : String) :
    ((o.merge later).disableFeatures.map name).contains x =
      ((o.disableFeatures ++ later.disableFeatures).map name).contains x := by
  rw [Bool.eq_iff_iff, List.contains_iff_mem, List.contains_iff_mem]
  simp only [List.mem_map, merge, mem_foldl_addNew, List.mem_append]

/-- Merged overrides force what the later ones force, or else what the earlier ones do. -/
theorem forced_merge {forced forced' : Option Pattern} (h : o.forced? = .ok forced)
    (h' : later.forced? = .ok forced') : (o.merge later).forced? = .ok (forced'.or forced) := by
  cases hl : later.forcePattern with
  | none =>
    have hnone : forced' = none := by
      rw [forced_eq_none_iff.mpr hl] at h'
      exact (Except.ok.inj h').symm
    have hsame : (o.merge later).forcePattern = o.forcePattern := by rw [merge, hl]; rfl
    rw [hnone, Option.none_or, ← h, forced?, forced?, hsame]
  | some text =>
    have hsame : (o.merge later).forcePattern = later.forcePattern := by rw [merge, hl]; rfl
    cases hp : forced' with
    | none =>
      rw [hp, forced_eq_none_iff, hl] at h'
      exact absurd h' (Option.some_ne_none text)
    | some p => rw [Option.some_or, ← hp, ← h', forced?, forced?, hsame]

/-- Merged overrides are accepted for their features if both were. -/
theorem features_merge (h : o.features? = .ok (o.disableFeatures.map featureName))
    (h' : later.features? = .ok (later.disableFeatures.map featureName)) :
    (o.merge later).features? = .ok ((o.merge later).disableFeatures.map featureName) := by
  obtain ⟨-, hne⟩ := features_eq_ok_iff.mp h
  obtain ⟨-, hne'⟩ := features_eq_ok_iff.mp h'
  refine features_eq_ok_iff.mpr ⟨rfl, fun hempty => ?_⟩
  have := @contains_map_merge o later featureName ""
  rw [List.contains_iff_mem.mpr hempty, eq_comm, List.contains_iff_mem, List.map_append,
    List.mem_append] at this
  exact this.elim hne hne'

end Overrides

/-! ### Corrected decisions -/

namespace Decision

open Overrides

/-- The decision after a correction. -/
def correct (d : Decision) (forced : Option Pattern) (size : Option SizePreference)
    (features : List String) : Decision :=
  let primary := forced.getD d.primary
  let scaffold := size.elim d.scaffold (·.scaffold)
  let contents := contentsFor primary scaffold
  { primary
    scaffold
    simplify := size.elim d.simplify (·.scaffold.isSome)
    disabledFeatures := features.foldl addNew d.disabledFeatures
    fastApi := d.fastApi && !features.contains Recommendation.fastApiFeature
    estimatedNodes := contents.1.length
    utilities := contents.2.map (·.name) }

/-- A correction after another one is one correction. -/
theorem correct_correct (d : Decision) (forced forced' : Option Pattern)
    (size size' : Option SizePreference) (features features' : List String) :
    (d.correct forced size features).correct forced' size' features' =
      d.correct (forced'.or forced) (size'.or size) (features ++ features') := by
  cases forced' <;> cases size' <;> simp [correct, List.foldl_append, Bool.and_assoc]

/-- Merged features are left out as if they had been named one after the other. -/
theorem correct_merge (d : Decision) (forced : Option Pattern) (size : Option SizePreference)
    (o later : Overrides) :
    d.correct forced size ((o.merge later).disableFeatures.map featureName) =
      d.correct forced size ((o.disableFeatures ++ later.disableFeatures).map featureName) := by
  have hnames := foldl_addNew_map featureName d.disabledFeatures o.disableFeatures
    later.disableFeatures
  simp only [correct, contains_map_merge]
  rw [merge, hnames]

end Decision

namespace Recommendation

open Overrides

variable {α : Type} [Scale α] {r s s' t : Recommendation α} {o later : Overrides}

/-- What a correction decides depends on the earlier decision only. -/
theorem decision_correct (r : Recommendation α) (forced : Option Pattern)
    (size : Option SizePreference) (features : List String) :
    (r.correct forced size features).decision = r.decision.correct forced size features := by
  obtain ⟨remarks, hcorrect⟩ := exists_correct_eq r forced size features
  rw [hcorrect]
  rfl

/-- An accepted correction with its pattern and its features. -/
theorem exists_of_override (ht : r.override o = .ok t) :
    ∃ forced, o.forced? = .ok forced ∧
      o.features? = .ok (o.disableFeatures.map featureName) ∧
      t.decision = r.decision.correct forced o.size (o.disableFeatures.map featureName) := by
  obtain ⟨forced, features, hforced, hfeatures, rfl⟩ := override_eq_ok_iff.mp ht
  obtain ⟨rfl, -⟩ := features_eq_ok_iff.mp hfeatures
  exact ⟨forced, hforced, hfeatures, decision_correct r forced o.size _⟩

/-- An accepted correction, from its pattern and its features. -/
theorem exists_override (r : Recommendation α) {forced : Option Pattern}
    (hforced : o.forced? = .ok forced)
    (hfeatures : o.features? = .ok (o.disableFeatures.map featureName)) :
    ∃ t, r.override o = .ok t ∧
      t.decision = r.decision.correct forced o.size (o.disableFeatures.map featureName) :=
  ⟨_, override_eq_ok_iff.mpr ⟨forced, _, hforced, hfeatures, rfl⟩,
    decision_correct r forced o.size _⟩

/-- A correction that follows another one can be merged into it, wherever the same was decided. -/
theorem exists_override_merge (hs : r.override o = .ok s) (hsame : s.decision = s'.decision)
    (ht : s'.override later = .ok t) :
    ∃ u, r.override (o.merge later) = .ok u ∧ u.decision = t.decision := by
  obtain ⟨forced, hforced, hfeatures, hsd⟩ := exists_of_override hs
  obtain ⟨forced', hforced', hfeatures', htd⟩ := exists_of_override ht
  obtain ⟨u, hu, hud⟩ := exists_override r (forced_merge hforced hforced')
    (features_merge hfeatures hfeatures')
  refine ⟨u, hu, ?_⟩
  calc u.decision
      = r.decision.correct (forced'.or forced) (later.size.or o.size)
          ((o.disableFeatures ++ later.disableFeatures).map featureName) := by
        rw [hud, Decision.correct_merge]; rfl
    _ = s'.decision.correct forced' later.size (later.disableFeatures.map featureName) := by
        rw [← hsame, hsd, Decision.correct_correct, List.map_append]
    _ = t.decision := htd.symm

/-- Corrections that follow one another can be merged into the first. -/
theorem exists_override_foldl_merge {os : List Overrides} (hs : r.override o = .ok s)
    (hsame : s.decision = s'.decision) (ht : os.foldlM override s' = .ok t) :
    ∃ u, r.override (os.foldl merge o) = .ok u ∧ u.decision = t.decision := by
  induction os generalizing o s s' with
  | nil =>
    obtain rfl := Except.ok.inj ht
    exact ⟨s, hs, hsame⟩
  | cons later rest ih =>
    rw [List.foldlM_cons, InPlace.bind_eq_ok_iff] at ht
    obtain ⟨next, hnext, hrest⟩ := ht
    obtain ⟨u, hu, hud⟩ := exists_override_merge hs hsame hnext
    exact ih hu hud hrest

/-- Merged into nothing, overrides lose repeated spellings only. -/
theorem exists_override_empty_merge (ht : r.override o = .ok t) :
    ∃ u, r.override (({} : Overrides).merge o) = .ok u ∧ u.decision = t.decision := by
  obtain ⟨forced, hforced, hfeatures, htd⟩ := exists_of_override ht
  obtain ⟨u, hu, hud⟩ := exists_override r (forced_merge (o := {}) rfl hforced)
    (features_merge (o := {}) rfl hfeatures)
  refine ⟨u, hu, ?_⟩
  rw [hud, htd, Decision.correct_merge, Option.or_none]
  show r.decision.correct forced (o.size.or none) _ = _
  rw [Option.or_none]
  rfl

/-- Corrections in place, one after another, all of which are accepted. -/
theorem run_forM_amend_eq_ok_iff {os : List Overrides} :
    (os.forM amend).run r = (.ok (), t) ↔ os.foldlM override r = .ok t := by
  induction os generalizing r with
  | nil =>
    show ((.ok (), r) : Except Fault Unit × Recommendation α) = (.ok (), t) ↔
      (.ok r : Except Fault (Recommendation α)) = .ok t
    exact ⟨fun h => congrArg Except.ok (Prod.mk.inj h).2, fun h => by rw [Except.ok.inj h]⟩
  | cons o rest ih =>
    rw [List.foldlM_cons]
    show (amend o >>= fun _ => rest.forM amend).run r = _ ↔ _
    rw [InPlace.run_bind, run_amend]
    cases r.override o with
    | ok s => exact ih
    | error f => exact ⟨nofun, nofun⟩

/-- **All overrides at once lead to the same decision as one after another.**  For every
recommendation and every run of accepted corrections in place: the overrides, merged in their order
from the first one on or into empty ones, are accepted, too, and what is decided then is what the
run has decided. -/
theorem amend_mergeAll (r t : Recommendation α) (os : List Overrides) (hne : os ≠ [])
    (ht : (os.forM amend).run r = (.ok (), t)) :
    (∃ all u, mergeAll os = some all ∧ (amend all).run r = (.ok (), u) ∧
      u.decision = t.decision) ∧
      ∃ u, (amend (os.foldl merge {})).run r = (.ok (), u) ∧ u.decision = t.decision := by
  rw [run_forM_amend_eq_ok_iff] at ht
  have hrun {o : Overrides} {u : Recommendation α} (hu : r.override o = .ok u) :
      (amend o).run r = (.ok (), u) := by
    rw [run_amend, hu]
  cases os with
  | nil => exact absurd rfl hne
  | cons first rest =>
    rw [List.foldlM_cons, InPlace.bind_eq_ok_iff] at ht
    obtain ⟨s, hs, hrest⟩ := ht
    obtain ⟨s₀, hs₀, hsame₀⟩ := exists_override_empty_merge hs
    obtain ⟨u, hu, hud⟩ := exists_override_foldl_merge hs rfl hrest
    obtain ⟨u₀, hu₀, hud₀⟩ := exists_override_foldl_merge hs₀ hsame₀ hrest
    exact ⟨⟨rest.foldl merge first, u, rfl, hrun hu, hud⟩, u₀, hrun hu₀, hud₀⟩

/-- A pattern forced twice, a scaffold chosen, and features named in several spellings. -/
theorem amend_mergeAll_spellings :
    ∃ (r t u : Recommendation Float32) (all : Overrides),
      let os : List Overrides :=
        [{ forcePattern := some "TOOL", disableFeatures := ["Cache", "FastAPI "] },
          { size := some .simple, disableFeatures := [" cache", "Cache"] },
          { forcePattern := some "rag", disableFeatures := ["fastapi", "logs"] }]
      os ≠ [] ∧ (os.forM amend).run r = (.ok (), t) ∧ mergeAll os = some all ∧
        (amend all).run r = (.ok (), u) ∧ u.decision = t.decision ∧
        t.decision.primary = .rag ∧ t.decision.disabledFeatures = ["cache", "fastapi", "logs"] := by
  let r : Recommendation Float32 :=
    { primary := .workflow, secondary := [.tool], confidence := Scale.zero, rationale := ""
      customizations := {}, suggestions := .for .workflow none .moderate true }
  let os : List Overrides :=
    [{ forcePattern := some "TOOL", disableFeatures := ["Cache", "FastAPI "] },
      { size := some .simple, disableFeatures := [" cache", "Cache"] },
      { forcePattern := some "rag", disableFeatures := ["fastapi", "logs"] }]
  have hrun : ∃ t, (os.forM amend).run r = (.ok (), t) ∧ t.decision.primary = .rag ∧
      t.decision.disabledFeatures = ["cache", "fastapi", "logs"] := ⟨_, rfl, rfl, rfl⟩
  obtain ⟨t, ht, hprimary, hfeatures⟩ := hrun
  obtain ⟨⟨all, u, hall, hu, hud⟩, -⟩ := amend_mergeAll r t os (List.cons_ne_nil _ _) ht
  exact ⟨r, t, u, all, List.cons_ne_nil _ _, ht, hall, hu, hud, hprimary, hfeatures⟩

end Recommendation

end AgentFlow
