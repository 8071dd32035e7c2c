import AgentFlow.Main
import AgentFlow.Proofs.Text.Lines
import AgentFlow.Proofs.Workflow.Names
import AgentFlow.Proofs.Output.OneLine
import AgentFlow.Proofs.Output.RouteTable
import AgentFlow.Proofs.Flowchart.Reading
import AgentFlow.Proofs.Flowchart.Drawing
import AgentFlow.Proofs.Flowchart.Fences
import AgentFlow.Proofs.Flowchart.Checking
import AgentFlow.Proofs.Output.DesignDocument
import AgentFlow.Proofs.InPlace
import AgentFlow.Proofs.Recommendation.Patterns
import AgentFlow.Proofs.Recommendation.Pipeline
import AgentFlow.Proofs.Recommendation.Corrections
import AgentFlow.Proofs.Scoring.Exact
import AgentFlow.Proofs.Scoring.Combinations
import AgentFlow.Proofs.Recommendation.WellFormed
import AgentFlow.Proofs.Recommendation.Promotion
import AgentFlow.Proofs.Recommendation.Fulfilled
import AgentFlow.Proofs.Session.Calls
import AgentFlow.Proofs.Session.History
import AgentFlow.Proofs.Session.InForce
import AgentFlow.Proofs.Recommendation.Replay
import AgentFlow.Proofs.Workflow.Accepted
import AgentFlow.Proofs.Output.Exchange
import AgentFlow.Proofs.Output.Literals
import AgentFlow.Proofs.Output.Checked
import AgentFlow.Proofs.Lint.LineScopes
import AgentFlow.Proofs.Lint.SharedAccesses
import AgentFlow.Proofs.Lint.SharedMutations
import AgentFlow.Proofs.Files.Paths
import AgentFlow.Proofs.Files.Confined
import AgentFlow.Proofs.Output.Saving
import AgentFlow.Proofs.Runs.Totals
import AgentFlow.Proofs.Recommendation.Preferences
import AgentFlow.Proofs.Workflow.Written
import AgentFlow.Proofs.Command.Failing
import AgentFlow.Proofs.Output.Parameters
import AgentFlow.Proofs.Output.SharedFields
import AgentFlow.Proofs.Output.ResultKeys
import AgentFlow.Proofs.Output.Handlers
import AgentFlow.Proofs.Output.Methods
import AgentFlow.Proofs.Output.FlowNames
import AgentFlow.Proofs.Output.FileSet
import AgentFlow.Proofs.Recommendation.Composition
import AgentFlow.Proofs.Number.Comparison
import AgentFlow.Proofs.Scoring.Ranking
import AgentFlow.Proofs.Recommendation.Strongest
import AgentFlow.Proofs.Recommendation.Merging
import AgentFlow.Proofs.Text.LowerCase
import AgentFlow.Proofs.Requirement.Reading
import AgentFlow.Proofs.Flowchart.Insertion
import AgentFlow.Proofs.Lint.Printing
import AgentFlow.Proofs.Output.Baselines
import AgentFlow.Proofs.Lint.Limits
import AgentFlow.Proofs.Lint.ExecTries
import AgentFlow.Proofs.Lint.Responsibilities
