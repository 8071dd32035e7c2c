import AgentFlow.Proofs.Recommendation.Corrections
import AgentFlow.Session.Basic

/-!
# Calls of a session

What the user of a planning session can do with it, what one call does, and what any number of calls
in any order do.

* `Session.Change`: the five changes that an accepted call can make.
* `Session.perform_cases`: **a call is refused and leaves the session as it was, or it is accepted
  and makes one of the changes.**
* `Session.run_induction`: what holds of a session at first and is kept by every change holds after
  any calls.
-/

namespace AgentFlow

namespace Session

variable {α : Type} (s : Session α)

/-! ### What each step does -/

theorem run_advance (target : Phase) :
    (SessionStep.advance target).run s =
      if s.phase.next? = some target then
        (.ok (), { s with phase := target, history := s.history ++ [.advanced s.phase target] })
      else (.error (.session (.notNext s.phase target)), s) := by
  rw [SessionStep.advance, InPlace.run_get_bind]
  simp only [ite_not]
  split <;> rfl

theorem run_requestRevision (reason : String) :
    (SessionStep.requestRevision reason).run s =
      if s.phase = .patternAnalysis ∨ s.phase = .completion then
        (.error (.session (.noRevision s.phase)), s)
      else
        (.ok (), { s with
          phase := .patternAnalysis
          history := s.history ++ [.revisionRequested s.phase reason] }) := by
  rw [SessionStep.requestRevision, InPlace.run_get_bind]
  dsimp only
  split <;> rfl

theorem run_revise (r : Recommendation α) :
    (SessionStep.revise r).run s =
      if s.phase = .patternAnalysis then
        (.ok (), { s with
          recommendation := r
          history := s.history ++ [.revised s.recommendation.primary r.primary] })
      else (.error (.session (.tooLateToRevise s.phase)), s) := by
  rw [SessionStep.revise, InPlace.run_get_bind]
  simp only [ne_eq, ite_not]
  split <;> rfl

variable [Scale α]

/-- The recommendation is corrected in place, but a correction that is refused has changed
nothing. -/
theorem run_onRecommendation_amend (o : Overrides) :
    (SessionStep.onRecommendation (Recommendation.amend o)).run s =
      match s.recommendation.override o with
      | .ok r => (.ok (), { s with recommendation := r })
      | .error f => (.error f, s) := by
  show (match (Recommendation.amend o).run s.recommendation with
    | (result, r) => (result, { s with recommendation := r })) = _
  rw [Recommendation.run_amend]
  cases s.recommendation.override o <;> rfl

theorem run_override (o : Overrides) :
    (SessionStep.override o).run s =
      if o.isEmpty = true then (.ok (), s)
      else if s.phase = .completion then (.error (.session .tooLateForOverrides), s)
      else
        match s.recommendation.override o with
        | .ok r =>
          (.ok (), { s with
            recommendation := r
            overrides := some (s.overrides.elim o (·.merge o))
            history := s.history ++ [.overridden r.primary r.confidence] })
        | .error f => (.error f, s) := by
  rw [SessionStep.override]
  split
  · rfl
  · rw [InPlace.run_get_bind]
    split
    · rfl
    · show ((SessionStep.onRecommendation (Recommendation.amend o)) >>= fun _ => _).run s = _
      rw [InPlace.run_bind, run_onRecommendation_amend]
      cases s.recommendation.override o <;> rfl

/-! ### Calls -/

inductive Call (α : Type) where
  | advance (target : Phase)
  | requestRevision (reason : String)
  | revise (r : Recommendation α)
  | override (o : Overrides)

def Call.step : Call α → SessionStep α Unit
  | advance target => .advance target
  | requestRevision reason => .requestRevision reason
  | revise r => .revise r
  | override o => .override o

def perform (c : Call α) : Except Fault Unit × Session α := c.step.run s

def after (calls : List (Call α)) : Session α := calls.foldl (fun s c => (s.perform c).2) s

def accepted (s : Session α) : List (Call α) → List (Call α)
  | [] => []
  | c :: rest =>
    match s.perform c with
    | (.ok (), t) => c :: t.accepted rest
    | (.error _, t) => t.accepted rest

/-- The change that an accepted call makes to a session. -/
inductive Change : Call α → Session α → Prop
  | idle {o : Overrides} (empty : o.isEmpty = true) : Change (.override o) s
  | advance {target : Phase} (next : s.phase.next? = some target) :
      Change (.advance target)
        { s with phase := target, history := s.history ++ [.advanced s.phase target] }
  | requestRevision {reason : String} (begun : s.phase ≠ .patternAnalysis)
      (unfinished : s.phase ≠ .completion) :
      Change (.requestRevision reason)
        { s with
          phase := .patternAnalysis
          history := s.history ++ [.revisionRequested s.phase reason] }
  | revise {r : Recommendation α} (early : s.phase = .patternAnalysis) :
      Change (.revise r)
        { s with
          recommendation := r
          history := s.history ++ [.revised s.recommendation.primary r.primary] }
  | override {o : Overrides} {r : Recommendation α} (corrects : o.isEmpty = false)
      (unfinished : s.phase ≠ .completion) (corrected : s.recommendation.override o = .ok r) :
      Change (.override o)
        { s with
          recommendation := r
          overrides := some (s.overrides.elim o (·.merge o))
          history := s.history ++ [.overridden r.primary r.confidence] }

/-! ### What a call does -/

variable {s}

/-- **A call is refused and leaves the session as it was, or it is accepted and makes one of the
changes.** -/
theorem perform_cases (s : Session α) (c : Call α) :
    (∃ f, s.perform c = (.error f, s)) ∨ ∃ t, s.perform c = (.ok (), t) ∧ s.Change c t := by
  cases c with
  | advance target =>
    rw [perform, Call.step, run_advance]
    by_cases hnext : s.phase.next? = some target
    · exact .inr ⟨_, if_pos hnext, .advance hnext⟩
    · exact .inl ⟨_, if_neg hnext⟩
  | requestRevision reason =>
    rw [perform, Call.step, run_requestRevision]
    by_cases hend : s.phase = .patternAnalysis ∨ s.phase = .completion
    · exact .inl ⟨_, if_pos hend⟩
    · obtain ⟨hbegun, hunfinished⟩ := not_or.mp hend
      exact .inr ⟨_, if_neg hend, .requestRevision hbegun hunfinished⟩
  | revise r =>
    rw [perform, Call.step, run_revise]
    by_cases hearly : s.phase = .patternAnalysis
    · exact .inr ⟨_, if_pos hearly, .revise hearly⟩
    · exact .inl ⟨_, if_neg hearly⟩
  | override o =>
    rw [perform, Call.step, run_override]
    by_cases hempty : o.isEmpty = true
    · exact .inr ⟨_, if_pos hempty, .idle hempty⟩
    · rw [if_neg hempty]
      by_cases hend : s.phase = .completion
      · exact .inl ⟨_, if_pos hend⟩
      · rw [if_neg hend]
        cases ho : s.recommendation.override o with
        | error f => exact .inl ⟨f, rfl⟩
        | ok r => exact .inr ⟨_, rfl, .override (Bool.eq_false_iff.mpr hempty) hend ho⟩

/-- A refused call leaves the session as it was. -/
theorem eq_of_perform_error {c : Call α} {f : Fault} {t : Session α}
    (h : s.perform c = (.error f, t)) : t = s := by
  rcases s.perform_cases c with ⟨g, hg⟩ | ⟨u, hu, -⟩
  · exact (Prod.mk.inj (h.symm.trans hg)).2
  · exact absurd (Prod.mk.inj (h.symm.trans hu)).1 nofun

theorem change_of_perform_ok {c : Call α} {t : Session α} (h : s.perform c = (.ok (), t)) :
    s.Change c t := by
  rcases s.perform_cases c with ⟨g, hg⟩ | ⟨u, hu, hchange⟩
  · exact absurd (Prod.mk.inj (h.symm.trans hg)).1 nofun
  · exact (Prod.mk.inj (h.symm.trans hu)).2 ▸ hchange

/-! ### Any number of calls -/

theorem after_cons (c : Call α) (rest : List (Call α)) :
    s.after (c :: rest) = (s.perform c).2.after rest := rfl

/-- **What holds of a session before any call, and is kept by every change, holds after any calls**
of the session and the calls that were accepted. -/
theorem run_induction {Q : List (Call α) → Session α → Prop} {first : Session α}
    (start : Q [] first) (step : ∀ {made s c t}, Q made s → s.Change c t → Q (made ++ [c]) t)
    (calls : List (Call α)) :
    Q (first.accepted calls) (first.after calls) := by
  -- The calls made so far vary along the run: a refused call is not added to them.
  have hrun : ∀ (calls : List (Call α)) {made : List (Call α)} {s : Session α}, Q made s →
      Q (made ++ s.accepted calls) (s.after calls) := by
    intro calls
    induction calls with
    | nil =>
      intro made s h
      rw [accepted, List.append_nil]
      exact h
    | cons c rest ih =>
      intro made s h
      rw [after_cons, accepted]
      rcases s.perform_cases c with ⟨f, hf⟩ | ⟨t, ht, hchange⟩
      · rw [hf]
        exact ih h
      · rw [ht, List.append_cons]
        exact ih (step h hchange)
  exact hrun calls start

end Session

end AgentFlow
