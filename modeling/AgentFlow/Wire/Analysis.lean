import AgentFlow.Data.Value
import AgentFlow.Scoring.Score

/-!
# Analyses as data

How analyses, scores and combinations are written as values of data formats and read from them.
-/

namespace AgentFlow.Wire

open Data

def pattern? (v : Value) : Option Pattern := v.name?.bind Pattern.ofName?

def scaffold? (v : Value) : Option Scaffold := v.name?.bind Scaffold.ofName?

def stage? (v : Value) : Option Stage := v.name?.bind Stage.ofName?

def complexity? (v : Value) : Option Complexity := v.name?.bind Complexity.ofName?

def ofPatterns (ps : List Pattern) : Value := .texts (ps.map (·.name))

def ofPatternMap {β : Type} (write : β → Value) (m : SortedMap Pattern β) : Value :=
  .table (m.entries.map fun (p, b) => (p.name, write b))

/-- A table with patterns for keys; of a key stated twice the last value counts. -/
def patternMap? {β : Type} (read : Value → Option β) (v : Value) :
    Option (SortedMap Pattern β) := do
  let members ← v.members? read
  let entries ← members.mapM fun (k, b) => (Pattern.ofName? k).map fun p => (p, b)
  some (SortedMap.ofList entries)

def ofTextMap {β : Type} (write : β → Value) (m : SortedMap String β) : Value :=
  .table (m.entries.map fun (k, b) => (k, write b))

/-- A table with texts for keys; of a key stated twice the last value counts. -/
def textMap? {β : Type} (read : Value → Option β) (v : Value) : Option (SortedMap String β) :=
  (v.members? read).map SortedMap.ofList

/-! ## Evidence and signals -/

def ofEvidence (e : Evidence) : Value :=
  .table [("hits", .nat e.hits), ("raw_score", .single e.rawScore), ("matched", .texts e.matched)]

def evidence? (v : Value) : Option Evidence := do
  match ← v.fields? ["hits", "raw_score", "matched"] with
  | [hits, raw, matched] =>
    some {
      hits := ← Value.required Value.count? hits
      rawScore := ← Value.required Value.single? raw
      matched := ← Value.required (Value.list? Value.text?) matched }
  | _ => none

def ofSignals (s : Signals) : Value :=
  .table [("word_count", .nat s.wordCount), ("technical_terms", .texts s.technicalTerms),
    ("integration_phrases", .nat s.integrationPhrases), ("multi_step", .bool s.multiStep),
    ("simplicity_markers", .texts s.simplicityMarkers), ("api_vocabulary", .bool s.apiVocabulary),
    ("etl_vocabulary", .bool s.etlVocabulary)]

def signals? (v : Value) : Option Signals := do
  match ← v.fields? ["word_count", "technical_terms", "integration_phrases", "multi_step",
    "simplicity_markers", "api_vocabulary", "etl_vocabulary"] with
  | [words, terms, phrases, steps, markers, api, etl] =>
    some {
      wordCount := ← Value.required Value.count? words
      technicalTerms := ← Value.required (Value.list? Value.text?) terms
      integrationPhrases := ← Value.required Value.count? phrases
      multiStep := ← Value.required Value.bool? steps
      simplicityMarkers := ← Value.required (Value.list? Value.text?) markers
      apiVocabulary := ← Value.required Value.bool? api
      etlVocabulary := ← Value.required Value.bool? etl }
  | _ => none

def ofAnalysis (a : Analysis) : Value :=
  .table [("context", .text a.stage.name), ("evidence", ofPatternMap ofEvidence a.evidence),
    ("complexity", ofSignals a.signals)]

def analysis? (v : Value) : Option Analysis := do
  match ← v.fields? ["context", "evidence", "complexity"] with
  | [stage, evidence, signals] =>
    some {
      stage := ← Value.required stage? stage
      evidence := ← Value.required (patternMap? evidence?) evidence
      signals := ← Value.required signals? signals }
  | _ => none

/-! ## Scores and combinations -/

def ofScores (s : Scores Float32) : Value := ofPatternMap .single s.ofPattern

def scores? (v : Value) : Option (Scores Float32) := do
  match ← v.fields? ["scores"] with
  | [scores] => (Value.required (patternMap? Value.single?) scores).map Scores.mk
  | _ => none

def ofRanked (e : Pattern × Float32) : Value := .list [.text e.1.name, .single e.2]

def ofCombination (c : Combination Float32) : Value :=
  .table [("patterns", ofPatterns c.patterns), ("strength", .single c.strength),
    ("known_hybrid", .bool c.knownHybrid)]

def combination? (v : Value) : Option (Combination Float32) := do
  match ← v.fields? ["patterns", "strength", "known_hybrid"] with
  | [patterns, strength, known] =>
    some {
      patterns := ← Value.required (Value.list? pattern?) patterns
      strength := ← Value.required Value.single? strength
      knownHybrid := ← Value.required Value.bool? known }
  | _ => none

end AgentFlow.Wire
