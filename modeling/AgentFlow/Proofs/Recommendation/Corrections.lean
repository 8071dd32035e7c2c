import AgentFlow.Proofs.InPlace
import AgentFlow.Recommendation.Overrides

/-!
# What a correction does

A correction that is accepted is determined by what the overrides force, the size they choose and
the features they leave out.  Everything later that speaks of corrections starts from one closed
form of them.

* `Recommendation.override_eq_ok_iff`: when a correction is accepted.
* `Recommendation.exists_correct_eq`: **every field of the corrected recommendation.**
* `Recommendation.run_amend`: in place, a correction makes the same recommendation, and **one that
  is refused leaves the recommendation as it was.**
-/

namespace AgentFlow

def SizePreference.scaffold : SizePreference → Option Scaffold
  | .simple => some .simpleWorkflow
  | .full => none

/-- How demanding a requirement is for a user who prefers the size. -/
def SizePreference.complexity (level : Complexity) : SizePreference → Complexity
  | .simple => .simple
  | .full => level

/-! ### What the overrides ask for -/

namespace Overrides

variable {o : Overrides}

/-- A pattern is forced exactly if its name is read as a pattern that can be recommended. -/
theorem forced_eq_some_iff {p : Pattern} :
    o.forced? = .ok (some p) ↔
      ∃ name, o.forcePattern = some name ∧ Pattern.parse? name = some p ∧ p.isBase = true := by
  rw [forced?]
  cases o.forcePattern with
  | none => simp
  | some name =>
    cases hq : Pattern.parse? name with
    | none => simp [hq]
    | some q =>
      cases hb : q.isBase with
      | false =>
        simp only [Option.some.injEq, exists_eq_left', hq, hb, Bool.false_eq_true, if_false]
        exact ⟨nofun, fun ⟨he, h⟩ => absurd (he ▸ hb) (by simp [h])⟩
      | true =>
        simp only [Option.some.injEq, exists_eq_left', hq, hb, if_true, Except.ok.injEq]
        exact ⟨fun he => ⟨he, he ▸ hb⟩, And.left⟩

theorem forced_eq_none_iff : o.forced? = .ok none ↔ o.forcePattern = none := by
  rw [forced?]
  cases o.forcePattern with
  | none => simp
  | some name =>
    cases hq : Pattern.parse? name with
    | none => simp [hq]
    | some q => cases hb : q.isBase <;> simp [hq, hb]

/-- Features are left out exactly if none of their names is empty. -/
theorem features_eq_ok_iff {features : List String} :
    o.features? = .ok features ↔
      o.disableFeatures.map featureName = features ∧ "" ∉ features := by
  simp only [features?, List.contains_iff_mem]
  split
  · next h =>
    constructor
    · exact nofun
    · rintro ⟨rfl, hne⟩
      exact absurd h hne
  · next h =>
    rw [Except.ok.injEq]
    constructor
    · rintro rfl
      exact ⟨rfl, h⟩
    · exact And.left

/-! ### Lists without repetition -/

section

variable {items more : List String} {x : String}

theorem mem_addNew {item : String} : x ∈ addNew items item ↔ x ∈ items ∨ x = item := by
  simp only [addNew, List.contains_iff_mem]
  split
  · next h => exact ⟨.inl, fun hx => hx.elim id fun he => he ▸ h⟩
  · rw [List.mem_append, List.mem_singleton]

theorem nodup_addNew (h : items.Nodup) (item : String) : (addNew items item).Nodup := by
  simp only [addNew, List.contains_iff_mem]
  split
  · exact h
  · next hnew =>
    rw [List.nodup_append]
    refine ⟨h, List.nodup_cons.mpr ⟨List.not_mem_nil, List.nodup_nil⟩, ?_⟩
    rintro y hy z hz rfl
    exact hnew (List.mem_singleton.mp hz ▸ hy)

/-- The items of both lists, those of the second one after those of the first. -/
theorem mem_foldl_addNew : x ∈ more.foldl addNew items ↔ x ∈ items ∨ x ∈ more := by
  induction more generalizing items with
  | nil => simp
  | cons item rest ih => rw [List.foldl_cons, ih, mem_addNew, List.mem_cons, or_assoc]

theorem nodup_foldl_addNew (h : items.Nodup) : (more.foldl addNew items).Nodup := by
  induction more generalizing items with
  | nil => exact h
  | cons item rest ih => exact ih (nodup_addNew h item)

end

end Overrides

/-! ### The corrected recommendation -/

namespace Recommendation

open Overrides

variable {α : Type}

/-- A feature that is left out is listed once, with a remark the first time. -/
theorem exists_disable_eq (r : Recommendation α) (feature : String) :
    ∃ remark, r.disable feature = { r with
      rationale := r.rationale ++ remark
      customizations := { r.customizations with
        disabledFeatures := addNew r.customizations.disabledFeatures feature }
      suggestions := { r.suggestions with
        fastApi := r.suggestions.fastApi && fastApiFeature != feature } } := by
  by_cases hknown : feature ∈ r.customizations.disabledFeatures
  · refine ⟨"", ?_⟩
    by_cases hf : fastApiFeature = feature
    · subst hf
      simp [disable, addNew, hknown]
    · simp [disable, addNew, hknown, Ne.symm hf, bne_iff_ne.mpr hf]
  · refine ⟨" | User override: " ++ ("disabled " ++ feature), ?_⟩
    by_cases hf : fastApiFeature = feature
    · subst hf
      simp [disable, addNew, note, hknown, String.append_assoc]
    · simp [disable, addNew, note, hknown, Ne.symm hf, bne_iff_ne.mpr hf, String.append_assoc]

/-- Features that are left out come after those that were left out before. -/
theorem exists_foldl_disable_eq (features : List String) (r : Recommendation α) :
    ∃ remarks, features.foldl disable r = { r with
      rationale := r.rationale ++ remarks
      customizations := { r.customizations with
        disabledFeatures := features.foldl addNew r.customizations.disabledFeatures }
      suggestions := { r.suggestions with
        fastApi := r.suggestions.fastApi && !features.contains fastApiFeature } } := by
  induction features generalizing r with
  | nil => exact ⟨"", by simp⟩
  | cons feature rest ih =>
    obtain ⟨remark, hfeature⟩ := exists_disable_eq r feature
    obtain ⟨remarks, hrest⟩ := ih (r.disable feature)
    refine ⟨remark ++ remarks, ?_⟩
    rw [List.foldl_cons, hrest, hfeature, List.contains_cons, Bool.not_or, ← Bool.and_assoc,
      ← String.append_assoc]
    rfl

variable [Scale α]

/-- Forcing a pattern and choosing a size replace fields of their own. -/
theorem exists_resize_force_eq (r : Recommendation α) (forced : Option Pattern)
    (size : Option SizePreference) :
    ∃ remarks, size.elim (forced.elim r r.force) (forced.elim r r.force).resize =
      { primary := forced.getD r.primary
        secondary := forced.elim r.secondary fun p => r.secondary.filter (· != p)
        confidence := forced.elim r.confidence fun _ =>
          Scale.min (Scale.mul r.confidence forcedFactor) forcedCeiling
        rationale := r.rationale ++ remarks
        customizations := { r.customizations with
          scaffold := size.elim r.customizations.scaffold (·.scaffold)
          simplify := size.elim r.customizations.simplify (·.scaffold.isSome) }
        suggestions := { r.suggestions with
          complexity :=
            size.elim r.suggestions.complexity (·.complexity r.suggestions.complexity) } } := by
  have hforce : ∃ remark, forced.elim r r.force =
      { r with
        primary := forced.getD r.primary
        secondary := forced.elim r.secondary fun p => r.secondary.filter (· != p)
        confidence := forced.elim r.confidence fun _ =>
          Scale.min (Scale.mul r.confidence forcedFactor) forcedCeiling
        rationale := r.rationale ++ remark } := by
    cases forced with
    | none => exact ⟨"", by simp⟩
    | some p => exact ⟨_, by rw [Option.elim, force, note, String.append_assoc]; rfl⟩
  obtain ⟨remark, hforce⟩ := hforce
  rw [hforce]
  cases size with
  | none => exact ⟨remark, rfl⟩
  | some size =>
    cases size <;>
      exact ⟨_, by rw [Option.elim, resize, note, String.append_assoc, String.append_assoc]; rfl⟩

/-- **Every field of a corrected recommendation.**  The rationale goes on with remarks. -/
theorem exists_correct_eq (r : Recommendation α) (forced : Option Pattern)
    (size : Option SizePreference) (features : List String) :
    ∃ remarks, r.correct forced size features =
      { primary := forced.getD r.primary
        secondary := forced.elim r.secondary fun p => r.secondary.filter (· != p)
        confidence := forced.elim r.confidence fun _ =>
          Scale.min (Scale.mul r.confidence forcedFactor) forcedCeiling
        rationale := r.rationale ++ remarks
        customizations :=
          { combinations := r.customizations.combinations
            scaffold := size.elim r.customizations.scaffold (·.scaffold)
            simplify := size.elim r.customizations.simplify (·.scaffold.isSome)
            disabledFeatures := features.foldl addNew r.customizations.disabledFeatures }
        suggestions := .for (forced.getD r.primary)
          (size.elim r.customizations.scaffold (·.scaffold))
          (size.elim r.suggestions.complexity (·.complexity r.suggestions.complexity))
          (r.suggestions.fastApi && !features.contains fastApiFeature) } := by
  obtain ⟨remarks, hstart⟩ := exists_resize_force_eq r forced size
  obtain ⟨more, hfeatures⟩ := exists_foldl_disable_eq features
    (size.elim (forced.elim r r.force) (forced.elim r r.force).resize)
  refine ⟨remarks ++ more, ?_⟩
  rw [correct, hfeatures, hstart, refresh, ← String.append_assoc]

/-! ### Accepted and refused corrections -/

/-- A correction is accepted exactly if its pattern and its features are. -/
theorem override_eq_ok_iff {r t : Recommendation α} {o : Overrides} :
    r.override o = .ok t ↔
      ∃ forced features, o.forced? = .ok forced ∧ o.features? = .ok features ∧
        r.correct forced o.size features = t := by
  simp only [override, InPlace.bind_eq_ok_iff, Except.ok.injEq, exists_and_left]

/-- What every correction keeps holds after corrections one after another. -/
theorem foldlM_override_induction {P : Recommendation α → Prop} {os : List Overrides}
    {r t : Recommendation α}
    (step : ∀ o ∈ os, ∀ {r t : Recommendation α}, P r → r.override o = .ok t → P t) (h : P r)
    (ht : os.foldlM override r = .ok t) : P t := by
  induction os generalizing r with
  | nil =>
    obtain rfl := Except.ok.inj ht
    exact h
  | cons o rest ih =>
    rw [List.foldlM_cons, InPlace.bind_eq_ok_iff] at ht
    obtain ⟨next, ho, hrest⟩ := ht
    exact ih (fun o' ho' => step o' (List.mem_cons_of_mem o ho'))
      (step o List.mem_cons_self h ho) hrest

/-- **Corrections in place make the corrected recommendation, or leave the recommendation as it
was.** -/
theorem run_amend (r : Recommendation α) (o : Overrides) :
    (amend o).run r =
      match r.override o with
      | .ok t => (.ok (), t)
      | .error f => (.error f, r) := by
  rw [amend, override]
  cases o.forced? with
  | error f => rfl
  | ok forced =>
    cases o.features? with
    | error f => rfl
    | ok features =>
      have hforce : (forced.forM fun p => modify (·.force p) : Amendment α Unit).run r =
          (.ok (), forced.elim r r.force) := by
        cases forced <;> rfl
      have hresize (s : Recommendation α) :
          (o.size.forM fun size => modify (·.resize size) : Amendment α Unit).run s =
            (.ok (), o.size.elim s s.resize) := by
        cases o.size <;> rfl
      show ((forced.forM fun p => modify (·.force p) : Amendment α Unit) >>= fun _ =>
        (o.size.forM fun size => modify (·.resize size)) >>= fun _ =>
        (features.forM fun feature => modify (·.disable feature)) >>= fun _ =>
        modify (·.refresh)).run r = _
      simp only [InPlace.run_bind, hforce, hresize, InPlace.run_forM_modify]
      rfl

end Recommendation

end AgentFlow
