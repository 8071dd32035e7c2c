import AgentFlow.Output.Baseline
import AgentFlow.Wire.Workflow

/-!
# Baselines as data

How baselines and comparisons with them are written as values of data formats and read from them.
-/

namespace AgentFlow.Wire

open Data

def ofBaseline (b : Baseline) : Value := .table [("files", ofTextMap .text b.digests)]

def baseline? (v : Value) : Option Baseline := do
  match ← v.fields? ["files"] with
  | [files] => some { digests := ← Value.required (textMap? Value.text?) files }
  | _ => none

def ofBaselineDiff (d : BaselineDiff) : Value :=
  .table [("added", .texts d.added), ("removed", .texts d.removed), ("changed", .texts d.changed)]

end AgentFlow.Wire
