import AgentFlow.Command.Recommend
import AgentFlow.Proofs.Recommendation.Pipeline
import AgentFlow.Proofs.Session.History
import Mathlib.Data.List.Induction

/-!
# Overrides in force

A session keeps all overrides that were accepted, and apart from them the recommendation that it
carries.  Another recommendation starts without the wishes of the user, so only the overrides that
were accepted after it are in force.

* `Overrides.InForce`: what overrides ask for holds of a recommendation.
* `Overrides.InForce.override`: a later correction keeps the earlier ones in force, except where it
  corrects them.
* `Session.inForce_sinceRevision`: **the overrides that were accepted after the last revision are in
  force,** and these are all of them if no revision came after an override.
* `Command.inForce_planned`: the command that hands over states the overrides again, so that **all
  that it reports is in force.**
-/

namespace AgentFlow

variable {α : Type}

/-! ### What overrides ask for -/

/-- What the overrides ask for holds of the recommendation. -/
structure Overrides.InForce (o : Overrides) (r : Recommendation α) : Prop where
  pattern : ∀ name, o.forcePattern = some name → Pattern.parse? name = some r.primary
  size : ∀ size, o.size = some size → r.customizations.scaffold = size.scaffold
  features : ∀ f ∈ o.disableFeatures, featureName f ∈ r.customizations.disabledFeatures

namespace Overrides

variable {o later : Overrides} {r t : Recommendation α}

theorem inForce_empty (r : Recommendation α) : ({} : Overrides).InForce r :=
  ⟨nofun, nofun, nofun⟩

/-- Overrides that are in force one by one are in force when merged. -/
theorem InForce.merge (h : o.InForce r) (hlater : later.InForce r) : (o.merge later).InForce r where
  pattern name hname := by
    rcases Option.or_eq_some_iff.mp hname with hname | ⟨-, hname⟩
    · exact hlater.pattern name hname
    · exact h.pattern name hname
  size size hsize := by
    rcases Option.or_eq_some_iff.mp hsize with hsize | ⟨-, hsize⟩
    · exact hlater.size size hsize
    · exact h.size size hsize
  features f hf := by
    rcases mem_foldl_addNew.mp hf with hf | hf
    · exact h.features f hf
    · exact hlater.features f hf

/-- The later ones of merged overrides win. -/
theorem InForce.of_merge (h : (o.merge later).InForce r) : later.InForce r where
  pattern name hname := h.pattern name (Option.or_eq_some_iff.mpr (.inl hname))
  size size hsize := h.size size (Option.or_eq_some_iff.mpr (.inl hsize))
  features f hf := h.features f (mem_foldl_addNew.mpr (.inr hf))

variable [Scale α]

/-- **An accepted correction puts its overrides in force, and leaves those in force that it does not
correct.** -/
theorem InForce.override (h : o.InForce r) (ht : r.override later = .ok t) :
    (o.merge later).InForce t := by
  obtain ⟨forced, features, hforced, hfeatures, rfl⟩ := Recommendation.override_eq_ok_iff.mp ht
  obtain ⟨hnames, -⟩ := features_eq_ok_iff.mp hfeatures
  obtain ⟨remarks, hcorrect⟩ := Recommendation.exists_correct_eq r forced later.size features
  rw [hcorrect]
  refine ⟨?pattern, ?size, ?features⟩
  case pattern =>
    intro name hname
    cases hp : forced with
    | none =>
      rw [hp, forced_eq_none_iff] at hforced
      rw [Overrides.merge, hforced] at hname
      exact h.pattern name hname
    | some p =>
      rw [hp, forced_eq_some_iff] at hforced
      obtain ⟨name', hname', hparse, -⟩ := hforced
      rw [Overrides.merge, hname'] at hname
      obtain rfl := Option.some.inj hname
      exact hparse
  case size =>
    intro size hsize
    rcases Option.or_eq_some_iff.mp hsize with hsize | ⟨hnone, hsize⟩
    · rw [hsize]
      rfl
    · rw [hnone]
      exact h.size size hsize
  case features =>
    intro f hf
    rcases mem_foldl_addNew.mp hf with hf | hf
    · exact mem_foldl_addNew.mpr (.inl (h.features f hf))
    · exact mem_foldl_addNew.mpr (.inr (hnames ▸ List.mem_map_of_mem hf))

theorem inForce_override (ht : r.override o = .ok t) : o.InForce t :=
  ((inForce_empty r).override ht).of_merge

end Overrides

/-! ### Sessions -/

namespace Session

/-- Whether a call replaces the recommendation. -/
def Call.isRevise : Call α → Bool
  | revise _ => true
  | _ => false

/-- The overrides that calls make, without those before the last revision. -/
def sinceRevision (made : List (Call α)) : List Overrides :=
  made.foldl (fun os c => if c.isRevise then [] else os ++ c.corrections?.toList) []

theorem sinceRevision_concat (made : List (Call α)) (c : Call α) :
    sinceRevision (made ++ [c]) =
      if c.isRevise then [] else sinceRevision made ++ c.corrections?.toList := by
  rw [sinceRevision, List.foldl_append]
  rfl

/-- Without overrides before a revision, no overrides are lost. -/
theorem sinceRevision_eq {made : List (Call α)}
    (h : ∀ before r after, made = before ++ .revise r :: after →
      before.filterMap Call.corrections? = []) :
    sinceRevision made = made.filterMap Call.corrections? := by
  induction made using List.reverseRecOn with
  | nil => rfl
  | append_singleton made c ih =>
    have hmade : sinceRevision made = made.filterMap Call.corrections? := by
      refine ih fun before r after he => h before r (after ++ [c]) ?_
      rw [he, List.append_assoc, List.cons_append]
    rw [sinceRevision_concat, List.filterMap_append, hmade]
    cases c with
    | revise r => rw [h made r [] rfl]; rfl
    | advance target => rfl
    | requestRevision reason => rfl
    | override o =>
      cases hc : (Call.override o : Call α).corrections? with
      | none => rw [List.filterMap_cons_none hc]; rfl
      | some o => rw [List.filterMap_cons_some hc]; rfl

variable [Scale α] {s t : Session α} {c : Call α}

/-- A change without corrections and revisions keeps the recommendation. -/
theorem Change.recommendation_eq (h : s.Change c t) (hcorrections : c.corrections? = none)
    (hrevise : c.isRevise = false) : t.recommendation = s.recommendation := by
  cases h with
  | idle | advance | requestRevision => rfl
  | revise => exact absurd hrevise.symm Bool.false_ne_true
  | override hcorrects =>
    rw [Call.corrections?, if_neg (Bool.eq_false_iff.mp hcorrects)] at hcorrections
    exact absurd hcorrections (Option.some_ne_none _)

/-- A change with corrections makes them. -/
theorem Change.corrected {o : Overrides} (h : s.Change c t) (ho : c.corrections? = some o) :
    s.recommendation.override o = .ok t.recommendation := by
  cases h with
  | idle hempty =>
    rw [Call.corrections?, if_pos hempty] at ho
    exact absurd ho.symm (Option.some_ne_none _)
  | advance | requestRevision | revise => exact absurd ho.symm (Option.some_ne_none _)
  | override hcorrects _ hcorrected =>
    rw [Call.corrections?, if_neg (Bool.eq_false_iff.mp hcorrects)] at ho
    obtain rfl := Option.some.inj ho
    exact hcorrected

/-- A change keeps the overrides in force that were accepted after the last revision. -/
theorem Change.inForce {made : List (Call α)}
    (h : ∀ o, Overrides.mergeAll (sinceRevision made) = some o → o.InForce s.recommendation)
    (hchange : s.Change c t) (o : Overrides)
    (ho : Overrides.mergeAll (sinceRevision (made ++ [c])) = some o) :
    o.InForce t.recommendation := by
  rw [sinceRevision_concat] at ho
  cases hrevise : c.isRevise with
  | true =>
    rw [hrevise, if_pos rfl] at ho
    exact absurd ho.symm (Option.some_ne_none _)
  | false =>
    rw [hrevise, if_neg Bool.false_ne_true] at ho
    cases hcorrections : c.corrections? with
    | none =>
      rw [hcorrections, Option.toList_none, List.append_nil] at ho
      rw [hchange.recommendation_eq hcorrections hrevise]
      exact h o ho
    | some later =>
      rw [hcorrections, Option.toList_some, Overrides.mergeAll_concat] at ho
      obtain rfl := Option.some.inj ho
      have hcorrected := hchange.corrected hcorrections
      -- The first overrides after a revision find none in force.
      cases hearlier : Overrides.mergeAll (sinceRevision made) with
      | none => exact Overrides.inForce_override hcorrected
      | some earlier => exact (h earlier hearlier).override hcorrected

/-- **The overrides that were accepted after the last revision are in force,** merged in their
order. -/
theorem inForce_sinceRevision (first : Session α) (calls : List (Call α)) (o : Overrides)
    (ho : Overrides.mergeAll (sinceRevision (first.accepted calls)) = some o) :
    o.InForce (first.after calls).recommendation := by
  refine run_induction (Q := fun made s =>
    ∀ o, Overrides.mergeAll (sinceRevision made) = some o → o.InForce s.recommendation)
    ?_ Change.inForce calls o ho
  exact fun _ => nofun

end Session

/-! ### The command that hands over -/

namespace Command

open Session

/-- The calls by which a user comes to the planning of the orchestrator, after a revision that takes
another recommendation or without one. -/
def planCalls (o : Overrides) : Option (Recommendation Float32) → List (Call Float32)
  | none => [.override o, .advance .orchestratorPlanning]
  | some r =>
    [.override o, .advance .orchestratorPlanning, .requestRevision revisionReason, .revise r,
      .override o, .advance .orchestratorPlanning]

theorem perform_of_after {s t : Session Float32} (c : Call Float32)
    (h : s.after? c.step = .ok t) : s.perform c = (.ok (), t) := by
  rw [Session.after?] at h
  split at h
  · next u hu =>
    obtain rfl := Except.ok.inj h
    exact hu
  · exact absurd h nofun

/-- The session that is handed over comes from calls that were all accepted. -/
theorem exists_planCalls {recommender : Recommender Float32} {project text : String} {o : Overrides}
    {revise : Bool} {t : Session Float32} (h : planned recommender project text o revise = .ok t) :
    ∃ first revised, (Session.start project text first).accepted (planCalls o revised) =
        planCalls o revised ∧
      (Session.start project text first).after (planCalls o revised) = t := by
  simp only [planned, InPlace.bind_eq_ok_iff] at h
  obtain ⟨first, -, s, hs, h⟩ := h
  have hstart := perform_of_after (.override o) hs
  cases revise with
  | false =>
    have hend := perform_of_after (.advance _) h
    refine ⟨first, none, ?_, ?_⟩
    · simp only [planCalls, accepted, hstart, hend]
    · simp only [planCalls, after_cons, hstart, hend]
      rfl
  | true =>
    simp only [if_true, InPlace.bind_eq_ok_iff] at h
    obtain ⟨s₂, h₂, s₃, h₃, r, -, s₄, h₄, s₅, h₅, h⟩ := h
    have hadvance := perform_of_after (.advance _) h₂
    have hrequest := perform_of_after (.requestRevision _) h₃
    have hrevise := perform_of_after (.revise _) h₄
    have hagain := perform_of_after (.override o) h₅
    have hend := perform_of_after (.advance _) h
    refine ⟨first, some r, ?_, ?_⟩
    · simp only [planCalls, accepted, hstart, hadvance, hrequest, hrevise, hagain, hend]
    · simp only [planCalls, after_cons, hstart, hadvance, hrequest, hrevise, hagain, hend]
      rfl

/-- **What the command hands over is in force,** be it after a revision or without one. -/
theorem inForce_planned {recommender : Recommender Float32} {project text : String} {o : Overrides}
    {revise : Bool} {t : Session Float32} (h : planned recommender project text o revise = .ok t)
    (all : Overrides) (hall : t.overrides = some all) : all.InForce t.recommendation := by
  obtain ⟨first, revised, hmade, rfl⟩ := exists_planCalls h
  have hforce := inForce_sinceRevision (Session.start project text first) (planCalls o revised)
  have htold := run_induction (told_start project text first) Told.step (planCalls o revised)
  have hmerged := htold.overrides
  rw [hmade] at hforce hmerged
  rw [hall] at hmerged
  cases ho : o.isEmpty with
  | true =>
    have hnone : (planCalls o revised).filterMap Call.corrections? = [] := by
      cases revised <;> simp [planCalls, List.filterMap_cons, Call.corrections?, ho]
    rw [hnone] at hmerged
    exact absurd hmerged (Option.some_ne_none _)
  | false =>
    have hlast : sinceRevision (planCalls o revised) = [o] := by
      cases revised <;> simp [planCalls, sinceRevision, Call.isRevise, Call.corrections?, ho]
    have hin : o.InForce _ := hforce o (by rw [hlast]; rfl)
    cases revised with
    | none =>
      have hone : (planCalls o none).filterMap Call.corrections? = [o] := by
        simp [planCalls, List.filterMap_cons, Call.corrections?, ho]
      rw [hone] at hmerged
      obtain rfl := Option.some.inj hmerged
      exact hin
    | some r =>
      have htwo : (planCalls o (some r)).filterMap Call.corrections? = [o, o] := by
        simp [planCalls, List.filterMap_cons, Call.corrections?, ho]
      rw [htwo] at hmerged
      obtain rfl := Option.some.inj hmerged
      exact hin.merge hin

end Command

/-! ### All of it -/

/-- **The overrides that a session reports are in force,** those that were accepted after the last
revision in any case, all of them if no revision came after an override, and all of them when the
command hands the session over.  A revision takes a recommendation that knows nothing of the
overrides before it. -/
theorem Session.overrides_inForce [Scale α] (project requirements : String) (r : Recommendation α)
    (calls : List (Call α)) :
    let first := Session.start project requirements r
    let s := first.after calls
    let made := first.accepted calls
    (∀ o, Overrides.mergeAll (sinceRevision made) = some o → o.InForce s.recommendation) ∧
      ((∀ before r' after, made = before ++ .revise r' :: after →
          before.filterMap Call.corrections? = []) →
        ∀ o, s.overrides = some o → o.InForce s.recommendation) ∧
      ∀ (recommender : Recommender Float32) (o : Overrides) (revise : Bool) (t : Session Float32),
        Command.planned recommender project requirements o revise = .ok t →
        ∀ all, t.overrides = some all → all.InForce t.recommendation := by
  intro first s made
  have hsince := inForce_sinceRevision first calls
  refine ⟨hsince, ?_, fun recommender o revise t => Command.inForce_planned⟩
  intro hkept o ho
  have htold := run_induction (told_start project requirements r) Told.step calls
  refine hsince o ?_
  rw [sinceRevision_eq hkept, ← ho]
  exact htold.overrides.symm

theorem Session.overrides_inForce_answers :
    ∃ t all, Command.planned standardRecommender "Question Desk" "Answer questions"
        { forcePattern := some "TOOL" } true = .ok t ∧
      t.overrides = some all ∧ all.InForce t.recommendation := by
  let first := standardRecommender.ofAnalysis (.ofText "Answer questions" .createSpec)
  have hfirst : standardRecommender.recommend "Answer questions" = .ok first := by
    rw [Recommender.recommend, if_pos (by decide)]
    rfl
  obtain ⟨-, -, hplanned⟩ := Session.overrides_inForce "Question Desk" "Answer questions" first []
  have hrun : ∃ t, Command.planned standardRecommender "Question Desk" "Answer questions"
      { forcePattern := some "TOOL" } true = .ok t ∧
        t.overrides = some { forcePattern := some "TOOL" } := by
    rw [Command.planned, hfirst]
    exact ⟨_, rfl, rfl⟩
  obtain ⟨t, ht, hall⟩ := hrun
  exact ⟨t, _, ht, hall, hplanned _ _ _ t ht _ hall⟩

/-- After a revision a session still reports what its user asked for before, but the recommendation
knows nothing of it. -/
theorem Session.overrides_outlive_revision :
    ∃ first, standardRecommender.recommend "Answer questions" = .ok first ∧
      let o : Overrides := { forcePattern := some "TOOL", disableFeatures := ["fastapi"] }
      let s := (Session.start "Question Desk" "Answer questions" first).after
        [.override o, .revise first]
      s.overrides = some o ∧
        Overrides.featureName "fastapi" ∉ s.recommendation.customizations.disabledFeatures := by
  refine ⟨standardRecommender.ofAnalysis (.ofText "Answer questions" .createSpec), ?_, ?_, ?_⟩
  · rw [Recommender.recommend, if_pos (by decide)]
    rfl
  · rfl
  · exact List.not_mem_nil

end AgentFlow
