import AgentFlow.Digest.Sha256
import AgentFlow.Output.Files

/-!
# Baselines

The digests of a set of files, by which a later set is compared with it.
-/

namespace AgentFlow

open Data

structure Baseline where
  digests : SortedMap String String

/-- How a set of files differs from an earlier one, each list in the order of the paths. -/
structure BaselineDiff where
  added : List String
  removed : List String
  changed : List String
deriving DecidableEq

def BaselineDiff.isClean (d : BaselineDiff) : Bool :=
  d.added.isEmpty && d.removed.isEmpty && d.changed.isEmpty

def digestOf (content : String) : String := Digest.sha256 content.toUTF8.toList

namespace Baseline

def capture (files : FileSet) : Baseline := ⟨files.mapValues fun _ s => digestOf s⟩

/-- How a set of files differs from the one that the digests are from. -/
def compare (b : Baseline) (files : FileSet) : BaselineDiff :=
  let now := (capture files).digests
  { added := now.keys.filter fun k => (b.digests.get? k).isNone
    removed := b.digests.keys.filter fun k => (now.get? k).isNone
    changed := (now.entries.filter fun e =>
      match b.digests.get? e.1 with
      | some d => d != e.2
      | none => false).map (·.1) }

end Baseline

end AgentFlow
