import AgentFlow.Recommendation.Overrides
import AgentFlow.Wire.Analysis

/-!
# Recommendations as data

How recommendations and overrides are written as values of data formats and read from them.  Parts
of the customizations that say nothing are left out.
-/

namespace AgentFlow.Wire

open Data

/-- A member that is left out when it says nothing. -/
def memberUnless (silent : Bool) (key : String) (v : Value) : List (String × Value) :=
  if silent then [] else [(key, v)]

def ofCustomizations (c : Customizations Float32) : Value :=
  .table (
    memberUnless c.combinations.isEmpty "combination_info"
      (ofTextMap ofCombination c.combinations) ++
    memberUnless c.scaffold.isNone "graduated_structure"
      (.text ((c.scaffold.map (·.name)).getD "")) ++
    memberUnless (!c.simplify) "simplify" (.bool c.simplify) ++
    memberUnless c.disabledFeatures.isEmpty "disabled_features" (.texts c.disabledFeatures))

def customizations? (v : Value) : Option (Customizations Float32) := do
  match ← v.fields?
      ["combination_info", "graduated_structure", "simplify", "disabled_features"] with
  | [combinations, scaffold, simplify, disabled] =>
    some {
      combinations := ← Value.orElse (textMap? combination?) .empty combinations
      scaffold := ← Value.orElse (Value.optional? scaffold?) none scaffold
      simplify := ← Value.orElse Value.bool? false simplify
      disabledFeatures := ← Value.orElse (Value.list? Value.text?) [] disabled }
  | _ => none

def ofSuggestions (s : Suggestions) : Value :=
  .table [("estimated_nodes", .nat s.estimatedNodes), ("suggested_utilities", .texts s.utilities),
    ("complexity", .text s.complexity.name), ("fast_api_integration", .bool s.fastApi)]

def suggestions? (v : Value) : Option Suggestions := do
  match ← v.fields? ["estimated_nodes", "suggested_utilities", "complexity",
    "fast_api_integration"] with
  | [nodes, utilities, complexity, fastApi] =>
    some {
      estimatedNodes := ← Value.required Value.count? nodes
      utilities := ← Value.required (Value.list? Value.text?) utilities
      complexity := ← Value.required complexity? complexity
      fastApi := ← Value.required Value.bool? fastApi }
  | _ => none

def ofRecommendation (r : Recommendation Float32) : Value :=
  .table [("primary_pattern", .text r.primary.name),
    ("secondary_patterns", ofPatterns r.secondary), ("confidence_score", .single r.confidence),
    ("rationale", .text r.rationale),
    ("template_customizations", ofCustomizations r.customizations),
    ("workflow_suggestions", ofSuggestions r.suggestions)]

def recommendation? (v : Value) : Option (Recommendation Float32) := do
  match ← v.fields? ["primary_pattern", "secondary_patterns", "confidence_score", "rationale",
    "template_customizations", "workflow_suggestions"] with
  | [primary, secondary, confidence, rationale, customizations, suggestions] =>
    some {
      primary := ← Value.required pattern? primary
      secondary := ← Value.required (Value.list? pattern?) secondary
      confidence := ← Value.required Value.single? confidence
      rationale := ← Value.required Value.text? rationale
      customizations := ← Value.required customizations? customizations
      suggestions := ← Value.required suggestions? suggestions }
  | _ => none

def sizePreference? (v : Value) : Option SizePreference := v.name?.bind SizePreference.ofName?

def ofText? (s : Option String) : Value := (s.map Value.text).getD .null

def ofOverrides (o : Overrides) : Value :=
  .table [("force_pattern", ofText? o.forcePattern),
    ("complexity_preference", ofText? (o.size.map (·.name))),
    ("disable_features", .texts o.disableFeatures)]

def overrides? (v : Value) : Option Overrides := do
  match ← v.fields? ["force_pattern", "complexity_preference", "disable_features"] with
  | [force, size, disable] =>
    some {
      forcePattern := ← Value.orElse (Value.optional? Value.text?) none force
      size := ← Value.orElse (Value.optional? sizePreference?) none size
      disableFeatures := ← Value.orElse (Value.list? Value.text?) [] disable }
  | _ => none

end AgentFlow.Wire
