import AgentFlow.Runs.Store

/-!
# Activities of commands

A command works on a tree of files, prints lines, and notes the runs that are to be recorded when it
is over.  What it did before a fault stays done.

* `Activity.say`, `Activity.complain` add a line to the output and to the complaints.
* `Activity.onDisk` changes the tree and nothing else.
* `Workspace.settle` records the noted runs, with the time at their end.
-/

namespace AgentFlow.Command

open Files

/-- A run and the file of the record that it belongs to. -/
structure NotedRun where
  path : String
  run : Run

/-- What a command works on and leaves behind. -/
structure Workspace where
  tree : Tree
  output : String := ""
  complaints : String := ""
  /-- The runs to be recorded, the first one first. -/
  noted : List NotedRun := []

/-- The tree with the noted runs recorded. -/
def Workspace.settle (w : Workspace) (time : String) (duration : Nat) : Tree :=
  w.noted.foldl (fun t n => RunLog.recordIn t n.path n.run time duration) w.tree

abbrev Activity := ExceptT Fault (StateM Workspace)

namespace Activity

def print (text : String) : Activity Unit := modify fun w => { w with output := w.output ++ text }

def say (line : String) : Activity Unit := print (line ++ "\n")

def sayAll (lines : List String) : Activity Unit := print (Text.unlines lines)

def complain (line : String) : Activity Unit :=
  modify fun w => { w with complaints := w.complaints ++ line ++ "\n" }

def require {α : Type} (result : Except Fault α) : Activity α := ExceptT.mk (pure result)

def tree : Activity Tree := do return (← get).tree

def onDisk {α : Type} (work : Disk α) : Activity α := ExceptT.mk fun w =>
  let (result, t) := work.run w.tree
  (result, { w with tree := t })

def note (record : Option String) (run : Run) : Activity Unit :=
  match record with
  | some path => modify fun w => { w with noted := w.noted ++ [⟨path, run⟩] }
  | none => pure ()

end Activity

end AgentFlow.Command
