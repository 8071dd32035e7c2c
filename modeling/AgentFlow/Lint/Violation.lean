/-!
# Violations

The rules of the check for antipatterns and what a check finds.
-/

namespace AgentFlow.Lint

/-- How bad a violation is, the worst first. -/
inductive Severity where
  | critical
  | high
  | medium
  | low
deriving DecidableEq, Inhabited

namespace Severity

def all : List Severity := [critical, high, medium, low]

def name : Severity → String
  | critical => "CRITICAL"
  | high => "HIGH"
  | medium => "MEDIUM"
  | low => "LOW"

def parse? (s : String) : Option Severity := all.find? (·.name == s)

/-- The place in the order from the worst down. -/
def rank : Severity → Nat
  | critical => 0
  | high => 1
  | medium => 2
  | low => 3

/-- Whether a violation of this severity fails a check. -/
def isBlocking : Severity → Bool
  | critical | high => true
  | medium | low => false

end Severity

inductive Rule where
  | syntaxError
  | analysisError
  | monolithicNode
  | sharedStateInExec
  | lifecycleConfusion
  | businessLogicInUtility
  | sharedStateMutationInUtility
  | exceptionHandlingInExec
  | multiResponsibilityName
  | loopInNonBatchNode
  | blockingCallInSyncNode
  | missingLifecycleMethod
deriving DecidableEq, Inhabited

namespace Rule

def id : Rule → String
  | syntaxError => "syntax_error"
  | analysisError => "analysis_error"
  | monolithicNode => "monolithic_node"
  | sharedStateInExec => "shared_state_in_exec"
  | lifecycleConfusion => "lifecycle_confusion"
  | businessLogicInUtility => "business_logic_in_utility"
  | sharedStateMutationInUtility => "shared_state_mutation_in_utility"
  | exceptionHandlingInExec => "exception_handling_in_exec"
  | multiResponsibilityName => "multi_responsibility_name"
  | loopInNonBatchNode => "loop_in_non_batch_node"
  | blockingCallInSyncNode => "blocking_call_in_sync_node"
  | missingLifecycleMethod => "missing_lifecycle_method"

def title : Rule → String
  | syntaxError => "Syntax Error"
  | analysisError => "Analysis Error"
  | monolithicNode => "Monolithic Node"
  | sharedStateInExec => "Shared State Access in exec"
  | lifecycleConfusion => "Lifecycle Confusion"
  | businessLogicInUtility => "Business Logic in Utility Function"
  | sharedStateMutationInUtility => "Shared State Mutation in Utility Function"
  | exceptionHandlingInExec => "Exception Handling in exec"
  | multiResponsibilityName => "Multi-Responsibility Name"
  | loopInNonBatchNode => "Collection Loop in Non-Batch Node"
  | blockingCallInSyncNode => "Blocking Network Call in Sync Node"
  | missingLifecycleMethod => "Missing Lifecycle Method"

/-- The severity of a violation unless the check states another. -/
def severity : Rule → Severity
  | syntaxError | sharedStateInExec => .critical
  | analysisError | monolithicNode | businessLogicInUtility | sharedStateMutationInUtility
  | exceptionHandlingInExec => .high
  | lifecycleConfusion | loopInNonBatchNode | blockingCallInSyncNode | missingLifecycleMethod =>
    .medium
  | multiResponsibilityName => .low

end Rule

/-- One finding.  Line zero stands for the whole file. -/
structure Violation where
  ruleId : String
  title : String
  severity : Severity
  path : String
  line : Nat
  message : String
  suggestion : String
deriving DecidableEq, Inhabited

namespace Violation

def withSeverity (rule : Rule) (severity : Severity) (path : String) (line : Nat)
    (message suggestion : String) : Violation :=
  ⟨rule.id, rule.title, severity, path, line, message, suggestion⟩

def of (rule : Rule) (path : String) (line : Nat) (message suggestion : String) : Violation :=
  withSeverity rule rule.severity path line message suggestion

end Violation

end AgentFlow.Lint
