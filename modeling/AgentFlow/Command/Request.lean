import AgentFlow.Command.Detect
import AgentFlow.Command.Generate
import AgentFlow.Command.Recommend
import AgentFlow.Command.Status

/-!
# Requests

All that the program can be asked for, and what each request does.
-/

namespace AgentFlow.Command

open Files

inductive Request where
  | setUp (force : Bool)
  | analyze (inquiry : Inquiry) (form : OutputForm)
  | generate (options : GenerateOptions)
  | detect (options : DetectOptions)
  | handOver (inquiry : Inquiry) (project : String) (revise : Bool)
  | status (form : OutputForm)
  | showSettings (form : OutputForm)
  | showGlobalSettings (form : OutputForm)
  | showPaths
  | initializeSettings (force : Bool)
  | initializeGlobalSettings (force : Bool)

def Request.paths : Request → List String
  | .generate o => o.specFile.toList ++ o.directory.toList ++ o.baseline.toList
  | .detect o => o.path :: o.output.toList
  | _ => []

/-- Ends an activity with the status of success. -/
def succeed (work : Activity Unit) : Activity Nat := do
  work
  return 0

/-- Does what is asked for; the answer is the status to end with. -/
def Request.run (env : Environment) (now : Occasion) : Request → Activity Nat
  | .setUp force => succeed (Command.setUp env force)
  | .analyze inquiry form => succeed (Command.analyze env inquiry form)
  | .generate options => succeed (Command.generate env options)
  | .detect options => Command.detect env options
  | .handOver inquiry project revise => succeed (Command.handOver env now inquiry project revise)
  | .status form => succeed (showStatus env form)
  | .showSettings form => succeed (Command.showSettings env form)
  | .showGlobalSettings form => succeed (Command.showGlobalSettings env form)
  | .showPaths => succeed (Command.showPaths env)
  | .initializeSettings force => succeed (Command.initializeSettings env force)
  | .initializeGlobalSettings force => succeed (Command.initializeGlobalSettings env force)

structure Outcome where
  result : Except Fault Nat
  workspace : Workspace

def Request.perform (r : Request) (env : Environment) (now : Occasion) (t : Tree) : Outcome :=
  let (result, w) := (r.run env now).run { tree := t }
  ⟨result, w⟩

end AgentFlow.Command
