import AgentFlow.Requirement.Analysis
import AgentFlow.Scoring.Scale

/-!
# Scores

The score of each pattern, from the evidence for it: the evidence is normalized, of two strong
patterns that exclude each other the weaker one is damped, and two strong patterns that compose well
raise each other.

* `Scores.ranked`: from the best pattern to the worst, ties in declaration order.
* `Scorer.combinations`: the pairs of strong patterns, by their key.
-/

namespace AgentFlow

open Data

variable {α : Type} [Scale α]

structure Scores (α : Type) where
  ofPattern : SortedMap Pattern α

/-- How scores are found: from a sum of weights, and from when on a pattern is strong. -/
structure Scorer (α : Type) where
  normalize : Float32 → α
  threshold : α

/-- The scorer of the program, with the threshold for strong patterns. -/
def Scorer.standard (threshold : Float32) : Scorer Float32 := ⟨AgentFlow.normalize, threshold⟩

/-- Two patterns that are both strong. -/
structure Combination (α : Type) where
  patterns : List Pattern
  strength : α
  /-- Whether the patterns are known to compose well. -/
  knownHybrid : Bool

/-- The names of the patterns with a plus sign between each two. -/
def Combination.key (c : Combination α) : String := "+".intercalate (c.patterns.map (·.name))

/-- The pairs of base patterns, the earlier one first. -/
def patternPairs : List (Pattern × Pattern) :=
  Pattern.base.flatMap fun p => (Pattern.base.filter fun q => p.rank < q.rank).map fun q => (p, q)

namespace Scores

/-- The score of a pattern; nothing for a pattern without one. -/
def get (s : Scores α) (p : Pattern) : α := (s.ofPattern.get? p).getD Scale.zero

def adjust (s : Scores α) (p : Pattern) (f : α → α) : Scores α :=
  match s.ofPattern.get? p with
  | some x => ⟨s.ofPattern.insert p (f x)⟩
  | none => s

/-- The patterns with their scores, best first; equal scores keep the declaration order. -/
def ranked (s : Scores α) : List (Pattern × α) :=
  s.ofPattern.entries.mergeSort fun a b => Scale.orderLe b.2 a.2

/-- The best pattern, if its score is more than nothing. -/
def primary? (s : Scores α) : Option (Pattern × α) :=
  s.ranked.head?.filter fun e => Scale.lt Scale.zero e.2

def isEmpty (s : Scores α) : Bool := s.ofPattern.values.all fun x => Scale.le x Scale.zero

end Scores

namespace Scorer

/-- What the weaker of two conflicting patterns keeps of its score. -/
def conflictDamping : α := Scale.hundredths 85

/-- What two patterns that compose well add to each other's scores. -/
def synergyBonus : α := Scale.hundredths 5

def strong (r : Scorer α) (s : Scores α) (p : Pattern) : Bool := Scale.lt r.threshold (s.get p)

def plain (r : Scorer α) (a : Analysis) : Scores α :=
  ⟨SortedMap.ofList (Pattern.base.map fun p => (p, r.normalize (a.rawScore p)))⟩

/-- Damps the weaker pattern of a pair, the later one on a tie, if the pair is in conflict and both
patterns are strong. -/
def damp (r : Scorer α) (s : Scores α) (pair : Pattern × Pattern) : Scores α :=
  let (p, q) := pair
  if isConflict p q && r.strong s p && r.strong s q then
    let weaker := if Scale.le (s.get q) (s.get p) then q else p
    s.adjust weaker fun x => Scale.mul x conflictDamping
  else s

def damped (r : Scorer α) (a : Analysis) : Scores α := patternPairs.foldl r.damp (r.plain a)

def raise (x : α) : α := Scale.min (Scale.add x synergyBonus) Scale.one

/-- The patterns that receive a bonus, once for each synergy with another strong pattern. -/
def raised (r : Scorer α) (s : Scores α) : List Pattern :=
  (patternPairs.filter fun (p, q) => isSynergy p q && r.strong s p && r.strong s q).flatMap
    fun (p, q) => [p, q]

def score (r : Scorer α) (a : Analysis) : Scores α :=
  let s := r.damped a
  (r.raised s).foldl (fun s p => s.adjust p raise) s

/-- The combination of a pair, if both patterns are strong and they are not in conflict. -/
def combine? (r : Scorer α) (s : Scores α) (pair : Pattern × Pattern) : Option (Combination α) :=
  let (p, q) := pair
  if r.strong s p && r.strong s q && !isConflict p q then
    some ⟨[p, q], Scale.min (s.get p) (s.get q), isSynergy p q⟩
  else none

def combinations (r : Scorer α) (s : Scores α) : SortedMap String (Combination α) :=
  SortedMap.ofList ((patternPairs.filterMap (r.combine? s)).map fun c => (c.key, c))

end Scorer

/-- The scaffold for a requirement that is simple: one that says so, or that fits no pattern. -/
def scaffoldFor? (a : Analysis) : Option Scaffold :=
  if a.signals.level != .simple then none
  else if a.signals.simplicityMarkers.isEmpty && a.hasMatches then none
  else if a.signals.apiVocabulary then some .basicApi
  else if a.signals.etlVocabulary then some .simpleEtl
  else some .simpleWorkflow

end AgentFlow
