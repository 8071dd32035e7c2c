import AgentFlow.Recommendation.Recommend

/-!
# Overrides

What a user corrects in a recommendation: the pattern, the size of the scaffold, features to leave
out.  All corrections are checked before any is made.

* `Recommendation.amend` makes the corrections in place.
* `Recommendation.override` is the recommendation with the corrections, or the fault.
-/

namespace AgentFlow

variable {α : Type} [Scale α]

structure Overrides where
  forcePattern : Option String := none
  size : Option SizePreference := none
  disableFeatures : List String := []
  deriving DecidableEq, Inhabited

namespace Overrides

/-- Whether nothing is corrected. -/
def isEmpty (o : Overrides) : Bool :=
  o.forcePattern.isNone && o.size.isNone && o.disableFeatures.isEmpty

/-- A list with an item at its end, unless it is there already. -/
def addNew (items : List String) (item : String) : List String :=
  if items.contains item then items else items ++ [item]

/-- The corrections of both, the later ones winning; features add up. -/
def merge (o later : Overrides) : Overrides where
  forcePattern := later.forcePattern.or o.forcePattern
  size := later.size.or o.size
  disableFeatures := later.disableFeatures.foldl addNew o.disableFeatures

/-- The pattern that is forced, if any; it must be one that can be recommended. -/
def forced? (o : Overrides) : Except Fault (Option Pattern) :=
  match o.forcePattern with
  | none => .ok none
  | some name =>
    match Pattern.parse? name with
    | some p => if p.isBase then .ok (some p) else .error (.unknownPattern name)
    | none => .error (.unknownPattern name)

/-- A feature as it is kept: without blanks around it and in lower case. -/
def featureName (s : String) : String := Text.lower (Text.trim s)

/-- The features to leave out; none may be blank. -/
def features? (o : Overrides) : Except Fault (List String) :=
  let names := o.disableFeatures.map featureName
  if names.contains "" then .error .emptyFeature else .ok names

end Overrides

namespace Recommendation

/-- What a forced pattern keeps of the confidence. -/
def forcedFactor : α := Scale.hundredths 90

/-- The most confidence that a forced pattern can have. -/
def forcedCeiling : α := Scale.hundredths 80

/-- The feature that stands for the generated interface. -/
def fastApiFeature : String := "fastapi"

def note (r : Recommendation α) (what : String) : Recommendation α :=
  { r with rationale := r.rationale ++ " | User override: " ++ what }

def force (r : Recommendation α) (p : Pattern) : Recommendation α :=
  note { r with
    primary := p
    secondary := r.secondary.filter (· != p)
    confidence := Scale.min (Scale.mul r.confidence forcedFactor) forcedCeiling }
    ("pattern forced to " ++ p.name ++ " (was " ++ r.primary.name ++ ")")

def resize (r : Recommendation α) : SizePreference → Recommendation α
  | .simple =>
    note { r with
      customizations := { r.customizations with scaffold := some .simpleWorkflow, simplify := true }
      suggestions := { r.suggestions with complexity := .simple } }
      "complexity simple"
  | .full =>
    note { r with
      customizations := { r.customizations with scaffold := none, simplify := false } }
      "complexity full"

def disable (r : Recommendation α) (feature : String) : Recommendation α :=
  let r :=
    if feature == fastApiFeature then
      { r with suggestions := { r.suggestions with fastApi := false } }
    else r
  let known := r.customizations.disabledFeatures
  if known.contains feature then r
  else
    note { r with
      customizations := { r.customizations with disabledFeatures := known ++ [feature] } }
      ("disabled " ++ feature)

/-- Suggests again what the pattern and the scaffold contain. -/
def refresh (r : Recommendation α) : Recommendation α :=
  { r with
    suggestions :=
      .for r.primary r.customizations.scaffold r.suggestions.complexity r.suggestions.fastApi }

/-- Makes corrections that have been checked. -/
def correct (r : Recommendation α) (forced : Option Pattern) (size : Option SizePreference)
    (features : List String) : Recommendation α :=
  let r := forced.elim r r.force
  let r := size.elim r r.resize
  (features.foldl disable r).refresh

/-- The recommendation with the corrections of a user, unless one of them is refused. -/
def override (r : Recommendation α) (o : Overrides) : Except Fault (Recommendation α) := do
  let forced ← o.forced?
  let features ← o.features?
  .ok (r.correct forced o.size features)

end Recommendation

/-! ### Corrections in place -/

/-- Work on a recommendation.  What it changed before a fault stays changed. -/
abbrev Amendment (α : Type) := ExceptT Fault (StateM (Recommendation α))

def Amendment.require {β : Type} (result : Except Fault β) : Amendment α β :=
  ExceptT.mk (pure result)

/-- Corrects the recommendation step by step, or stops with a fault. -/
def Recommendation.amend (o : Overrides) : Amendment α Unit := do
  let forced ← Amendment.require o.forced?
  let features ← Amendment.require o.features?
  forced.forM fun p => modify (·.force p)
  o.size.forM fun size => modify (·.resize size)
  features.forM fun feature => modify (·.disable feature)
  modify (·.refresh)

end AgentFlow
