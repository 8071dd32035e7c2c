import AgentFlow.Requirement.Indicator
import AgentFlow.Text.Split

/-!
# Reading a requirement

What the text of a requirement says for each pattern, and how demanding it is.  Every phrase counts
once, however often it occurs.
-/

namespace AgentFlow

open Data

structure Evidence where
  /-- The number of phrases that were found. -/
  hits : Nat := 0
  /-- The sum of their weights for the stage. -/
  rawScore : Float32 := 0
  /-- The phrases that were found, in the order of the table. -/
  matched : List String := []

structure Signals where
  wordCount : Nat
  /-- Names of technology, in increasing order. -/
  technicalTerms : List String
  integrationPhrases : Nat
  multiStep : Bool
  simplicityMarkers : List String
  apiVocabulary : Bool
  etlVocabulary : Bool

/-- How demanding the signs make a requirement. -/
def Signals.level (s : Signals) : Complexity :=
  let terms := s.technicalTerms.length
  if terms ≤ 1 && s.integrationPhrases == 0 && !s.multiStep then .simple
  else if 4 ≤ terms || 2 ≤ s.integrationPhrases || (s.multiStep && 2 ≤ terms) then .complex
  else .moderate

structure Analysis where
  stage : Stage
  evidence : SortedMap Pattern Evidence
  signals : Signals

namespace Analysis

/-- The phrases of a table that occur in a lower-case text. -/
def phrasesIn (text : String) (phrases : List String) : List String :=
  phrases.filter (Text.contains text)

/-- Whether a phrase of the table occurs in a lower-case text. -/
def anyIn (text : String) (phrases : List String) : Bool := phrases.any (Text.contains text)

/-- What a lower-case text says for the pattern of a table. -/
def evidenceIn (text : String) (stage : Stage) (table : IndicatorTable) : Evidence :=
  let found := table.indicators.filter fun i => Text.contains text i.phrase
  { hits := found.length
    rawScore := found.foldl (fun sum i => sum + i.weight * table.weights.at stage) 0
    matched := found.map (·.phrase) }

def signalsIn (text : String) : Signals where
  wordCount := (Text.words text).length
  technicalTerms := (SortedMap.ofList ((phrasesIn text technicalTerms).map (·, ()))).keys
  integrationPhrases := (phrasesIn text integrationPhrases).length
  multiStep := anyIn text multiStepPhrases
  simplicityMarkers := phrasesIn text simplicityMarkers
  apiVocabulary := anyIn text apiVocabulary
  etlVocabulary := anyIn text etlVocabulary

def ofText (requirement : String) (stage : Stage) : Analysis :=
  let text := Text.lower requirement
  { stage
    evidence := SortedMap.ofList (indicatorTables.map fun t => (t.pattern, evidenceIn text stage t))
    signals := signalsIn text }

def rawScore (a : Analysis) (p : Pattern) : Float32 := ((a.evidence.get? p).getD {}).rawScore

def greater (x y : Float32) : Float32 := if x < y then y else x

/-- The greatest sum of weights of all patterns. -/
def maxRawScore (a : Analysis) : Float32 :=
  a.evidence.values.foldl (fun best e => greater best e.rawScore) 0

def hasMatches (a : Analysis) : Bool := a.evidence.values.any fun e => 0 < e.hits

end Analysis

end AgentFlow
