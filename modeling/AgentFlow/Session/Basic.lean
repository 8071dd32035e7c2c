import AgentFlow.Recommendation.Overrides
import AgentFlow.Session.Phase

/-!
# Planning sessions

A session carries a recommendation through the phases of planning.  It records what happens to it:
each step that changes something leaves one event, and a step that is refused leaves none.

* `SessionStep`: the steps work on the session in place, so what they change before a fault stays.
* `Session.after?`: the session after a step that is accepted.
-/

namespace AgentFlow

variable {α : Type} [Scale α]

inductive SessionEvent (α : Type) where
  | started (primary : Pattern) (confidence : α)
  | advanced (source target : Phase)
  | revisionRequested (source : Phase) (reason : String)
  | revised (before after : Pattern)
  | overridden (primary : Pattern) (confidence : α)

def SessionEvent.text : SessionEvent α → String
  | started p c => "Session started: " ++ p.name ++ " recommended with confidence " ++ Scale.text c
  | advanced s t => "Phase " ++ s.name ++ " -> " ++ t.name
  | revisionRequested s reason => "Revision requested in " ++ s.name ++ ": " ++ Text.trim reason
  | revised p q => "Recommendation revised: " ++ p.name ++ " -> " ++ q.name
  | overridden p c =>
    "User overrides applied: primary " ++ p.name ++ " confidence " ++ Scale.text c

structure Session (α : Type) where
  project : String
  requirements : String
  phase : Phase := .patternAnalysis
  recommendation : Recommendation α
  /-- All overrides that were accepted, merged in their order. -/
  overrides : Option Overrides := none
  /-- The events, the first one first. -/
  history : List (SessionEvent α)

def Session.start (project requirements : String) (r : Recommendation α) : Session α :=
  { project := project
    requirements := requirements
    recommendation := r
    history := [.started r.primary r.confidence] }

/-- A step of a session.  What it changed before a fault stays changed. -/
abbrev SessionStep (α : Type) := ExceptT Fault (StateM (Session α))

namespace SessionStep

def record (e : SessionEvent α) : SessionStep α Unit :=
  modify fun s => { s with history := s.history ++ [e] }

def onRecommendation {β : Type} (work : Amendment α β) : SessionStep α β := ExceptT.mk fun s =>
  let (result, r) := work.run s.recommendation
  (result, { s with recommendation := r })

/-- Goes on to a phase, which has to be the next one. -/
def advance (target : Phase) : SessionStep α Unit := do
  let source := (← get).phase
  if source.next? ≠ some target then throw (.session (.notNext source target))
  modify fun s => { s with phase := target }
  record (.advanced source target)

def requestRevision (reason : String) : SessionStep α Unit := do
  let source := (← get).phase
  if source = .patternAnalysis ∨ source = .completion then throw (.session (.noRevision source))
  modify fun s => { s with phase := .patternAnalysis }
  record (.revisionRequested source reason)

def revise (r : Recommendation α) : SessionStep α Unit := do
  let s ← get
  if s.phase ≠ .patternAnalysis then throw (.session (.tooLateToRevise s.phase))
  record (.revised s.recommendation.primary r.primary)
  modify fun s => { s with recommendation := r }

/-- Applies overrides to the recommendation.  Empty ones change nothing. -/
def override (o : Overrides) : SessionStep α Unit := do
  if o.isEmpty then return
  if (← get).phase = .completion then throw (.session .tooLateForOverrides)
  onRecommendation (Recommendation.amend o)
  let r := (← get).recommendation
  record (.overridden r.primary r.confidence)
  modify fun s => { s with overrides := some (s.overrides.elim o (·.merge o)) }

end SessionStep

namespace Session

variable (s : Session α)

def after? (step : SessionStep α Unit) : Except Fault (Session α) :=
  match step.run s with
  | (.ok (), t) => .ok t
  | (.error f, _) => .error f

/-- The session that has gone on to the next phase. -/
def advance (target : Phase) : Except Fault (Session α) := s.after? (.advance target)

/-- The session that has gone back to the first phase. -/
def requestRevision (reason : String) : Except Fault (Session α) :=
  s.after? (.requestRevision reason)

def revise (r : Recommendation α) : Except Fault (Session α) := s.after? (.revise r)

def override (o : Overrides) : Except Fault (Session α) := s.after? (.override o)

/-- Nothing if the session has reached its end, and else the fault. -/
def finish : Except Fault Unit :=
  if s.phase = .completion then .ok () else .error (.session (.unfinished s.phase))

end Session

end AgentFlow
