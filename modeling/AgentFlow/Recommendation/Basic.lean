import AgentFlow.Catalog
import AgentFlow.Scoring.Score

/-!
# Recommendations

What a requirement leads to: a pattern, how sure that is and why, and what to generate for it.
-/

namespace AgentFlow

open Data

/-- How a generated workflow departs from its pattern. -/
structure Customizations (α : Type) where
  combinations : SortedMap String (Combination α) := .empty
  scaffold : Option Scaffold := none
  simplify : Bool := false
  disabledFeatures : List String := []

structure Suggestions where
  estimatedNodes : Nat
  utilities : List String
  complexity : Complexity
  fastApi : Bool
  deriving DecidableEq

structure Recommendation (α : Type) where
  primary : Pattern
  secondary : List Pattern
  confidence : α
  rationale : String
  customizations : Customizations α
  suggestions : Suggestions

variable {α : Type} [Scale α]

/-- The later of two combinations that is at least as strong, for a search that keeps the first of
the strongest. -/
def strongerOf (best : Option (Combination α)) (c : Combination α) : Option (Combination α) :=
  match best with
  | none => some c
  | some b => if Scale.orderLe c.strength b.strength then some b else some c

/-- The strongest combination that is known to compose well; of equally strong ones the first by
key. -/
def Customizations.strongestHybrid? (c : Customizations α) : Option (Combination α) :=
  (c.combinations.values.filter (·.knownHybrid)).foldl strongerOf none

/-- The nodes and the names of utilities for a pattern, or for the scaffold that replaces it. -/
def contentsFor (p : Pattern) (scaffold : Option Scaffold) : List NodeSpec × List UtilitySpec :=
  match scaffold with
  | some s => (Catalog.scaffoldNodes s, Catalog.scaffoldUtilities s)
  | none => (Catalog.nodes p, Catalog.utilities p)

/-- What a workflow of the pattern, or of the scaffold that replaces it, will contain. -/
def Suggestions.for (p : Pattern) (scaffold : Option Scaffold) (complexity : Complexity)
    (fastApi : Bool) : Suggestions :=
  let contents := contentsFor p scaffold
  ⟨contents.1.length, contents.2.map (·.name), complexity, fastApi⟩

end AgentFlow
