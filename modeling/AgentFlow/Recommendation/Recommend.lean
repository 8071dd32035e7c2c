import AgentFlow.Fault
import AgentFlow.Recommendation.Basic

/-!
# Recommending a pattern

From the scores of a requirement to a recommendation: the best pattern, or `workflow` when nothing
speaks for any, the other patterns with a fair score, and an explanation.
-/

namespace AgentFlow

open Data

variable {α : Type} [Scale α]

structure Recommender (α : Type) where
  scorer : Scorer α
  stage : Stage
  /-- The least score of a secondary pattern. -/
  secondaryThreshold : α
  /-- From which share of the best score on the second best makes the choice ambiguous. -/
  ambiguityRatio : α
  fastApi : Bool

namespace Recommender

/-- What an ambiguous choice keeps of its confidence. -/
def ambiguityPenalty : α := Scale.hundredths 90

/-- The second best pattern, if its score makes the choice of the best one ambiguous. -/
def closeSecond? (r : Recommender α) (ranked : List (Pattern × α)) (best : α) :
    Option (Pattern × α) :=
  match ranked with
  | _ :: second :: _ =>
    if Scale.lt Scale.zero second.2 && Scale.le (Scale.mul r.ambiguityRatio best) second.2 then
      some second
    else none
  | _ => none

structure Choice (α : Type) where
  pattern : Pattern
  confidence : α
  rationale : String

def choose (r : Recommender α) (a : Analysis) (s : Scores α) : Choice α :=
  match s.primary? with
  | none => ⟨.workflow, Scale.zero, "No pattern indicators matched; defaulting to WORKFLOW"⟩
  | some (p, best) =>
    let matched := ((a.evidence.get? p).getD {}).matched
    let reasons :=
      p.name ++ " selected (score " ++ Scale.text best ++ ") from indicators: " ++
        ", ".intercalate matched
    match r.closeSecond? s.ranked best with
    | none => ⟨p, best, reasons⟩
    | some (q, second) =>
      ⟨p, Scale.mul best ambiguityPenalty,
        reasons ++ "; close second " ++ q.name ++ " (score " ++ Scale.text second ++
          ") lowers confidence"⟩

/-- The other patterns with a fair score, best first. -/
def secondary (r : Recommender α) (s : Scores α) (primary : Pattern) : List Pattern :=
  (s.ranked.filter fun (p, x) => p != primary && Scale.le r.secondaryThreshold x).map (·.1)

def remark (label : String) (items : List String) : String :=
  if items.isEmpty then "" else "; " ++ label ++ ": " ++ ", ".intercalate items

def ofAnalysis (r : Recommender α) (a : Analysis) : Recommendation α :=
  let s := r.scorer.score a
  let combinations := r.scorer.combinations s
  let scaffold := scaffoldFor? a
  let choice := r.choose a s
  let secondary := r.secondary s choice.pattern
  { primary := choice.pattern
    secondary
    confidence := choice.confidence
    rationale :=
      choice.rationale ++ remark "secondary" (secondary.map (·.name)) ++
        remark "combinations" combinations.keys ++
        (match scaffold with
          | some f => "; low complexity, graduated to " ++ f.name
          | none => "")
    customizations := { combinations, scaffold, simplify := scaffold.isSome }
    suggestions := .for choice.pattern scaffold a.signals.level r.fastApi }

/-- The recommendation for the text of a requirement, which must not be blank. -/
def recommend (r : Recommender α) (requirement : String) : Except Fault (Recommendation α) :=
  if Text.hasInk requirement then .ok (r.ofAnalysis (.ofText requirement r.stage))
  else .error .emptyRequirement

end Recommender

end AgentFlow
