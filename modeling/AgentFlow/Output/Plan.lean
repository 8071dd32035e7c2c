import AgentFlow.Output.Names
import AgentFlow.Recommendation.Basic
import AgentFlow.Settings.Basic
import AgentFlow.Workflow.Validation

/-!
# From a recommendation to a workflow

`Recommendation.workflow` builds the specification that a recommendation asks for: the nodes and
utilities of its scaffold, of two patterns composed, or of its primary pattern.
-/

namespace AgentFlow

open Data Output

structure Contents where
  pattern : Pattern
  basePatterns : List Pattern
  nodes : List NodeSpec
  utilities : List UtilitySpec

/-- The patterns with `p` moved to the front, if it is among them. -/
def primaryFirst (p : Pattern) (patterns : List Pattern) : List Pattern :=
  if patterns.contains p then p :: patterns.erase p else patterns

/-- The values that the nodes of a new workflow share. -/
def storeOf (nodes : List NodeSpec) : SortedMap String String :=
  .ofList (("input", "str") :: nodes.map (fun n => (n.resultKey, "Any")) ++ [("output", "Any")])

namespace Recommendation

variable {α : Type} [Scale α]

/-- The patterns to compose: those of the strongest known combination, if `promote` holds and no
scaffold takes their place. -/
def promoted? (r : Recommendation α) (promote : Bool) : Option (List Pattern) :=
  if promote && r.customizations.scaffold.isNone then
    r.customizations.strongestHybrid?.map fun c => primaryFirst r.primary c.patterns
  else none

/-- What the recommended workflow is made of. -/
def contents (r : Recommendation α) (promote : Bool) : Contents :=
  match r.customizations.scaffold, r.promoted? promote with
  | some s, _ => ⟨r.primary, [], Catalog.scaffoldNodes s, Catalog.scaffoldUtilities s⟩
  | none, some ps => ⟨.hybrid, ps, Catalog.composeNodes ps, Catalog.composeUtilities ps⟩
  | none, none => ⟨r.primary, [], Catalog.nodes r.primary, Catalog.utilities r.primary⟩

/-- The recommended workflow before its validation. -/
def draft (r : Recommendation α) (s : GenerationSettings) (promote : Bool)
    (name requirement : String) : WorkflowSpec :=
  let c := r.contents promote
  let fastApi := r.suggestions.fastApi && s.fastApi
  { name := Text.trim name
    pattern := c.pattern
    description := Text.trim requirement
    basePatterns := c.basePatterns
    nodes := c.nodes
    utilities := c.utilities
    sharedStore := storeOf c.nodes
    endpoints := if fastApi then [.run (Text.trim name)] else []
    edges := []
    fastApi := fastApi }

def workflow (r : Recommendation α) (s : GenerationSettings) (promote : Bool)
    (name requirement : String) : Except SpecFault WorkflowSpec := do
  let w := r.draft s promote name requirement
  w.validate
  .ok w

end Recommendation

end AgentFlow
