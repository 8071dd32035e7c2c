import AgentFlow.Session.Basic
import AgentFlow.Wire.Recommendation

/-!
# Sessions as data

What is handed over from a planning session: its state, and its summary at the end.  The identifier
of a session and the time are given from outside.
-/

namespace AgentFlow.Wire

open Data

def phase? (v : Value) : Option Phase := v.name?.bind Phase.ofName?

def ofHistory (s : Session Float32) : Value := .texts (s.history.map (·.text))

/-- The state of a session for other tools. -/
def ofHandoff (id time : String) (s : Session Float32) : Value :=
  let r := s.recommendation
  .table [("project_name", .text s.project), ("requirements", .text s.requirements),
    ("pattern_analysis", .table [("primary_pattern", .text r.primary.name),
      ("confidence_score", .single r.confidence), ("secondary_patterns", ofPatterns r.secondary),
      ("rationale", .text r.rationale),
      ("template_customizations", ofCustomizations r.customizations),
      ("workflow_suggestions", ofSuggestions r.suggestions)]),
    ("coordination_metadata", .table [("phase", .text s.phase.name), ("timestamp", .text time),
      ("coordination_id", .text id), ("user_overrides_applied", .bool s.overrides.isSome)])]

def ofSummary (id : String) (s : Session Float32) : Value :=
  .table [("coordination_id", .text id), ("project_name", .text s.project),
    ("final_pattern", .text s.recommendation.primary.name),
    ("confidence_score", .single s.recommendation.confidence),
    ("user_overrides_applied", .bool s.overrides.isSome), ("coordination_history", ofHistory s)]

end AgentFlow.Wire
