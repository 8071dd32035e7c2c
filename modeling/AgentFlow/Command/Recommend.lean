import AgentFlow.Command.Console
import AgentFlow.Command.Context
import AgentFlow.Json.Printer
import AgentFlow.Recommendation.Overrides
import AgentFlow.Wire.Session

/-!
# Commands that recommend

`analyze` recommends a pattern for a requirement and records that; `handOver` takes the
recommendation through the first phase of a planning session and prints what is handed over.
-/

namespace AgentFlow.Command

/-- A requirement with what the user wants to be heeded. -/
structure Inquiry where
  requirement : String
  /-- The stage of work, in the words of the user. -/
  stage : Option String := none
  overrides : Overrides := {}

def Context.recommender (c : Context) (q : Inquiry) : Recommender Float32 :=
  c.settings.recommender (q.stage.map Stage.read)

def recommendWith (r : Recommender Float32) (text : String) (o : Overrides) :
    Except Fault (Recommendation Float32) := do
  let first ← r.recommend text
  if o.isEmpty then .ok first else first.override o

def analyze (env : Environment) (q : Inquiry) (form : OutputForm) : Activity Unit := do
  let c ← Context.load env
  let text ← Activity.require (requireText q.requirement)
  let r ← Activity.require (recommendWith (c.recommender q) text q.overrides)
  Activity.note c.record (.ofRecommendation r)
  match form with
  | .json => Activity.say (Json.pretty (Wire.ofRecommendation r))
  | .text => Activity.sayAll (recommendationLines r)

/-! ## Sessions -/

def revisionReason : String := "needs_revision requested from the command line"

/-- A session that has come to the planning of the orchestrator, after one revision if that is
wanted.  A new recommendation starts without the wishes of the user, so they are stated again. -/
def planned (r : Recommender Float32) (project text : String) (o : Overrides) (revise : Bool) :
    Except Fault (Session Float32) := do
  let s ← (Session.start project text (← r.recommend text)).override o
  if revise then
    let s ← s.advance .orchestratorPlanning
    let s ← s.requestRevision revisionReason
    let s ← s.revise (← r.recommend text)
    let s ← s.override o
    s.advance .orchestratorPlanning
  else s.advance .orchestratorPlanning

/-- When a command runs, and the name of the session that it starts. -/
structure Occasion where
  time : String
  identifier : String

def handOver (env : Environment) (now : Occasion) (q : Inquiry) (project : String) (revise : Bool) :
    Activity Unit := do
  let c ← Context.load env
  let text ← Activity.require (requireText q.requirement)
  let s ← Activity.require (planned (c.recommender q) project text q.overrides revise)
  Activity.say (Json.pretty (Wire.ofHandoff now.identifier now.time s))

end AgentFlow.Command
