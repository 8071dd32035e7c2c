import AgentFlow.Proofs.Data.SortedMaps
import AgentFlow.Runs.Log
import Mathlib.Algebra.BigOperators.Group.List.Lemmas
import Mathlib.Algebra.GroupWithZero.Nat
import Mathlib.Data.List.Count

/-!
# Totals of the record of runs

The summary is read off the record, which holds counts as signed machine words.  As long as no count
and no sum leaves the word, it says what was recorded, whatever the order.

* `Runs.wordSum?_ofNat`: a sum of counts is there exactly if it fits, and then it is the true sum.
* `RunLog.get?_countEach`, `RunLog.sum_countEach`: how often each name was counted, and that nothing
  was counted twice.
* `RunLog.summary?_after`: **the summary is refused exactly if a sum does not fit.**
* `RunLog.summary_exact`: **the totals over any calls are exact, in any order of the calls.**
-/

namespace AgentFlow

open Data Number

/-! ### Calls -/

/-- What a call records: an analysis with its recommendation, a generation of so many files, or a
check with its report. -/
inductive Recorded where
  | analysis (r : Recommendation Float32)
  | generation (files : Nat)
  | detection (report : Lint.Report)

namespace Recorded

def run : Recorded → Run
  | analysis r => .ofRecommendation r
  | generation files => .ofFileCount files
  | detection report => .ofReport report

def isAnalysis : Recorded → Bool
  | analysis _ => true
  | _ => false

def isGeneration : Recorded → Bool
  | generation _ => true
  | _ => false

def isDetection : Recorded → Bool
  | detection _ => true
  | _ => false

def primary? : Recorded → Option Pattern
  | analysis r => some r.primary
  | _ => none

def files? : Recorded → Option Nat
  | generation n => some n
  | _ => none

def violations? : Recorded → Option Nat
  | detection report => some report.violations.length
  | _ => none

def blocks : Recorded → Bool
  | detection report =>
    report.violations.any fun v => v.severity == .critical || v.severity == .high
  | _ => false

/-- Whether a signed machine word holds the number of files. -/
def Fits (c : Recorded) : Prop := ∀ n, c.files? = some n → n < halfWord

end Recorded

/-- A call with the time at its end and its duration in milliseconds. -/
structure RecordCall where
  recorded : Recorded
  time : String
  duration : Nat

def RunLog.after (calls : List RecordCall) : RunLog :=
  calls.foldl (fun log c => log.record c.recorded.run c.time c.duration) []

def allFiles (calls : List RecordCall) : Nat := (calls.filterMap (·.recorded.files?)).sum

def analysesOf (p : Pattern) (calls : List RecordCall) : Nat :=
  calls.countP (·.recorded.primary? == some p)

def allViolations (calls : List RecordCall) : Nat :=
  (calls.filterMap (·.recorded.violations?)).sum

/-! ### The order of calls -/

section Perm

variable {calls calls' : List RecordCall} (h : calls'.Perm calls)

include h

theorem allFiles_perm : allFiles calls' = allFiles calls := (h.filterMap _).sum_eq

theorem allViolations_perm : allViolations calls' = allViolations calls := (h.filterMap _).sum_eq

theorem analysesOf_perm (p : Pattern) : analysesOf p calls' = analysesOf p calls := h.countP_eq _

end Perm

/-! ### Sums in machine words -/

namespace Runs

theorem wordOfCount_eq {n : Nat} (h : n < halfWord) : wordOfCount n = n := by
  rw [wordOfCount, Int.bmod_eq_of_le_mul_two] <;> simp only [wordCount, halfWord] at * <;> omega

theorem countOfWord_ofNat {n : Nat} (h : n < halfWord) : countOfWord n = n := by
  have hlt : n < wordCount := h.trans (by decide)
  rw [countOfWord, ← Int.natCast_mod, Nat.mod_eq_of_lt hlt, Int.toNat_natCast]

/-- Partial sums of counts only grow, so that the last one decides. -/
theorem wordSumFrom?_ofNat (s : Nat) (hs : s < halfWord) (ns : List Nat) :
    wordSumFrom? s (ns.map Int.ofNat) =
      if s + ns.sum < halfWord then some ((s + ns.sum : Nat) : Int) else none := by
  induction ns generalizing s with
  | nil => simp [wordSumFrom?, hs]
  | cons n rest ih =>
    have hstep : fitsWord ((s : Int) + Int.ofNat n) = true ↔ s + n < halfWord := by
      rw [fitsWord_iff]
      simp only [Int.ofNat_eq_natCast]
      omega
    rw [List.map_cons, wordSumFrom?, List.sum_cons, ← Nat.add_assoc]
    split
    · next hfits =>
      exact ih (s + n) (hstep.mp hfits)
    · next hfits =>
      rw [if_neg]
      intro hsum
      exact hfits (hstep.mpr (by omega))

/-- **A sum of counts is there exactly if it fits, and then it is the true sum.** -/
theorem wordSum?_ofNat (ns : List Nat) :
    wordSum? (ns.map Int.ofNat) = if ns.sum < halfWord then some (ns.sum : Int) else none := by
  have h := wordSumFrom?_ofNat 0 (by decide) ns
  rw [Nat.zero_add] at h
  exact h

end Runs

/-! ### How often each name was counted -/

namespace RunLog

theorem get?_countEach (names : List String) (name : String) :
    (countEach names).get? name = if name ∈ names then some (names.count name) else none := by
  have hkeys : name ∈ (countEach names).keys ↔ name ∈ names := by
    rw [countEach, SortedMap.mem_keys_ofList, List.map_map]
    exact iff_of_eq (congrArg (name ∈ ·) (List.map_id names))
  cases hvalue : (countEach names).get? name with
  | some n =>
    have hentry := (SortedMap.get?_eq_some_iff _ _ _).mp hvalue
    obtain ⟨name', -, he⟩ := List.mem_map.mp (SortedMap.mem_of_mem_ofList hentry)
    obtain ⟨rfl, rfl⟩ := Prod.mk.inj he
    rw [if_pos (hkeys.mp (List.mem_map_of_mem hentry))]
  | none =>
    rw [if_neg]
    intro hname
    obtain ⟨e, he, rfl⟩ := List.mem_map.mp (hkeys.mpr hname)
    have hsome := (SortedMap.get?_eq_some_iff _ e.1 e.2).mpr he
    exact Option.some_ne_none _ (hsome.symm.trans hvalue)

/-- **Nothing is counted twice.** -/
theorem sum_countEach (names : List String) : (countEach names).values.sum = names.length := by
  have hperm : (countEach names).keys.Perm names.dedup := by
    refine (List.perm_ext_iff_of_nodup (SortedMap.nodup_keys _) names.nodup_dedup).mpr ?_
    intro name
    change name ∈ (countEach names).keys ↔ _
    rw [countEach, SortedMap.mem_keys_ofList, List.map_map, List.mem_dedup]
    exact iff_of_eq (congrArg (name ∈ ·) (List.map_id names))
  have hvalues : (countEach names).values = (countEach names).keys.map names.count := by
    rw [SortedMap.values, SortedMap.keys, List.map_map]
    refine List.map_congr_left fun e he => ?_
    obtain ⟨name, -, rfl⟩ := List.mem_map.mp (SortedMap.mem_of_mem_ofList he)
    rfl
  rw [hvalues, (hperm.map names.count).sum_eq, List.sum_map_count_dedup_eq_length]

/-! ### What is read off the record -/

variable {α : Type} {calls : List RecordCall}

/-- A call adds its run to what is there. -/
theorem each_foldl_record (log : RunLog) (ask : Run → Option α) (calls : List RecordCall) :
    (calls.foldl (fun log c => log.record c.recorded.run c.time c.duration) log).each ask =
      log.each ask ++ calls.filterMap fun c => ask c.recorded.run := by
  induction calls generalizing log with
  | nil => simp
  | cons c rest ih =>
    rw [List.foldl_cons, ih, List.filterMap_cons]
    rw [record, each, List.filterMap_append]
    cases hanswer : ask c.recorded.run with
    | none => simp [each, hanswer]
    | some a => simp [each, hanswer]

theorem each_after (ask : Run → Option α) :
    (after calls).each ask = calls.filterMap fun c => ask c.recorded.run :=
  each_foldl_record [] ask calls

/-- The runs of a kind are counted where the record has an answer for them. -/
theorem length_each_after {ask : Run → Option α} {kind : Recorded → Bool}
    (h : ∀ c : Recorded, (ask c.run).isSome = kind c) :
    ((after calls).each ask).length = calls.countP (kind ·.recorded) := by
  rw [each_after, List.length_filterMap_eq_countP]
  exact List.countP_congr fun c _ => by rw [h]

theorem files_after (h : ∀ c ∈ calls, c.recorded.Fits) :
    (after calls).each Run.files? = (calls.filterMap (·.recorded.files?)).map Int.ofNat := by
  rw [each_after, List.map_filterMap]
  refine List.filterMap_congr fun c hc => ?_
  cases hrecorded : c.recorded with
  | generation n =>
    have hfits := h c hc n (by rw [hrecorded]; rfl)
    exact congrArg some (Runs.wordOfCount_eq hfits)
  | analysis r => rfl
  | detection report => rfl

theorem violations_after :
    (after calls).each Run.violations? = calls.filterMap (·.recorded.violations?) := by
  rw [each_after]
  refine List.filterMap_congr fun c _ => ?_
  cases c.recorded <;> rfl

theorem blocking_after :
    ((after calls).each Run.blocking?).count true = calls.countP (·.recorded.blocks) := by
  have hsevere : Lint.Severity.isBlocking = fun s => s == .critical || s == .high := by
    funext s
    cases s <;> rfl
  rw [each_after, List.count, List.countP_filterMap]
  refine List.countP_congr fun c _ => ?_
  cases c.recorded with
  | analysis r => exact Iff.rfl
  | generation n => exact Iff.rfl
  | detection report =>
    simp [Recorded.run, Run.ofReport, Run.blocking?, Recorded.blocks, Lint.Report.hasBlocking,
      hsevere]

theorem primary_after :
    (after calls).each Run.primary? = calls.filterMap (·.recorded.primary?) := by
  rw [each_after]
  refine List.filterMap_congr fun c _ => ?_
  cases c.recorded <;> rfl

/-- A pattern stands in the distribution with the number of its analyses, if there are any. -/
theorem get?_distribution {name : String} {n : Nat} :
    (countEach (((after calls).each Run.primary?).map (·.name))).get? name = some n ↔
      ∃ p : Pattern, p.name = name ∧ 0 < n ∧ n = analysesOf p calls := by
  have hcount (p : Pattern) :
      (((after calls).each Run.primary?).map (·.name)).count p.name = analysesOf p calls := by
    rw [List.count_map_of_injective _ _ fun _ _ => Pattern.name_injective, primary_after,
      List.count, List.countP_filterMap, analysesOf]
    refine List.countP_congr fun c _ => ?_
    cases c.recorded.primary? <;> simp
  rw [get?_countEach]
  constructor
  · intro h
    split at h
    · next hmem =>
      obtain ⟨p, -, rfl⟩ := List.mem_map.mp hmem
      obtain rfl := Option.some.inj h
      exact ⟨p, rfl, List.count_pos_iff.mpr hmem, hcount p⟩
    · exact absurd h nofun
  · rintro ⟨p, rfl, hpos, rfl⟩
    rw [← hcount p] at hpos ⊢
    rw [if_pos (List.count_pos_iff.mp hpos)]

end RunLog

/-! ### Exact summaries -/

/-- The totals of a summary, without averages and times. -/
structure RunFigures where
  analysisRuns : Nat
  generationRuns : Nat
  detectionRuns : Nat
  totalRuns : Nat
  distribution : SortedMap String Nat
  totalFiles : Nat
  totalViolations : Nat
  blockingDetections : Nat
  deriving DecidableEq

namespace RunSummary

/-- The totals of a summary, without averages and times. -/
def figures (s : RunSummary) : RunFigures where
  analysisRuns := s.analysisRuns
  generationRuns := s.generationRuns
  detectionRuns := s.detectionRuns
  totalRuns := s.totalRuns
  distribution := s.distribution
  totalFiles := s.totalFiles
  totalViolations := s.totalViolations
  blockingDetections := s.blockingDetections

/-- The totals of a summary are those of the calls. -/
structure Exact (s : RunSummary) (calls : List RecordCall) : Prop where
  analysisRuns : s.analysisRuns = calls.countP (·.recorded.isAnalysis)
  generationRuns : s.generationRuns = calls.countP (·.recorded.isGeneration)
  detectionRuns : s.detectionRuns = calls.countP (·.recorded.isDetection)
  totalRuns : s.totalRuns = calls.length
  distribution : ∀ name n, s.distribution.get? name = some n ↔
    ∃ p : Pattern, p.name = name ∧ 0 < n ∧ n = analysesOf p calls
  distribution_sum : s.distribution.values.sum = s.analysisRuns
  totalFiles : s.totalFiles = allFiles calls
  totalViolations : s.totalViolations = allViolations calls
  blockingDetections : s.blockingDetections = calls.countP (·.recorded.blocks)

/-- Exact totals are those of the calls in any other order. -/
theorem Exact.figures_eq {s s' : RunSummary} {calls calls' : List RecordCall} (h : s.Exact calls)
    (h' : s'.Exact calls') (hperm : calls'.Perm calls) : s'.figures = s.figures := by
  have hdistribution : s'.distribution = s.distribution := by
    refine SortedMap.ext_get? fun name => Option.ext fun n => ?_
    rw [h.distribution, h'.distribution]
    simp only [analysesOf_perm hperm]
  simp only [figures, h.analysisRuns, h'.analysisRuns, h.generationRuns,
    h'.generationRuns, h.detectionRuns, h'.detectionRuns, h.totalRuns, h'.totalRuns,
    hdistribution, h.totalFiles, h'.totalFiles, h.totalViolations, h'.totalViolations,
    h.blockingDetections, h'.blockingDetections, hperm.countP_eq, hperm.length_eq,
    allFiles_perm hperm, allViolations_perm hperm]

end RunSummary

namespace RunLog

variable {calls : List RecordCall}

/-- The fault of a sum over runs of a kind that does not fit. -/
def overflow (runs : String) : Fault :=
  .storage ("Failed to summarize " ++ runs ++ " runs: integer overflow")

/-- Each call is of one kind. -/
theorem countP_kinds (calls : List RecordCall) :
    calls.countP (·.recorded.isAnalysis) + calls.countP (·.recorded.isGeneration) +
      calls.countP (·.recorded.isDetection) = calls.length := by
  induction calls with
  | nil => rfl
  | cons c rest ih =>
    simp only [List.countP_cons, List.length_cons, ← ih]
    cases c.recorded <;>
      simp only [Recorded.isAnalysis, Recorded.isGeneration, Recorded.isDetection] <;> grind

theorem sumOr_of_lt (runs : String) {ns : List Nat} (h : ns.sum < halfWord) :
    sumOr runs (ns.map Int.ofNat) = .ok (ns.sum : Int) := by
  rw [sumOr, Runs.wordSum?_ofNat, if_pos h]

theorem sumOr_of_le (runs : String) {ns : List Nat} (h : halfWord ≤ ns.sum) :
    sumOr runs (ns.map Int.ofNat) = .error (overflow runs) := by
  rw [sumOr, Runs.wordSum?_ofNat, if_neg (Nat.not_lt.mpr h)]
  rfl

/-- **The summary is refused exactly if a sum does not fit,** and else it is exact. -/
theorem summary?_after (h : ∀ c ∈ calls, c.recorded.Fits) :
    (halfWord ≤ allFiles calls ∧ (after calls).summary? = .error (overflow "generation")) ∨
    (allFiles calls < halfWord ∧ halfWord ≤ allViolations calls ∧
      (after calls).summary? = .error (overflow "detection")) ∨
    (allFiles calls < halfWord ∧ allViolations calls < halfWord ∧
      ∃ s, (after calls).summary? = .ok s ∧ s.Exact calls) := by
  rw [summary?, files_after h, violations_after]
  rcases Nat.lt_or_ge (allFiles calls) halfWord with hfiles | hfiles
  case inr => exact .inl ⟨hfiles, by rw [sumOr_of_le "generation" hfiles]; rfl⟩
  rw [sumOr_of_lt "generation" hfiles]
  rcases Nat.lt_or_ge (allViolations calls) halfWord with hviolations | hviolations
  case inr =>
    exact .inr (.inl ⟨hfiles, hviolations, by rw [sumOr_of_le "detection" hviolations]; rfl⟩)
  rw [sumOr_of_lt "detection" hviolations]
  have hanalyses : ((after calls).each Run.primary?).length =
      calls.countP (·.recorded.isAnalysis) := length_each_after fun c => by cases c <;> rfl
  have hgenerations : ((calls.filterMap (·.recorded.files?)).map Int.ofNat).length =
      calls.countP (·.recorded.isGeneration) := by
    rw [← files_after h]
    exact length_each_after fun c => by cases c <;> rfl
  have hdetections : (calls.filterMap (·.recorded.violations?)).length =
      calls.countP (·.recorded.isDetection) := by
    rw [← violations_after]
    exact length_each_after fun c => by cases c <;> rfl
  exact .inr (.inr ⟨hfiles, hviolations, _, rfl, {
    analysisRuns := hanalyses
    generationRuns := hgenerations
    detectionRuns := hdetections
    totalRuns := by
      rw [RunSummary.totalRuns, ← countP_kinds, ← hanalyses, ← hgenerations, ← hdetections]
    distribution := fun name n => get?_distribution
    distribution_sum := by rw [sum_countEach, List.length_map]
    totalFiles := Runs.countOfWord_ofNat hfiles
    totalViolations := Runs.countOfWord_ofNat hviolations
    blockingDetections := blocking_after }⟩)

/-- **The totals over any calls are exact, in any order of the calls.**  If every number of files is
below `2 ^ 63`, the summary is refused exactly if the sum of the files or of the violations is not,
and else it counts the calls of each kind, the analyses that found each pattern, the files, the
violations and the checks with a critical or high violation.  Calls in another order give the same
totals, or the same fault. -/
theorem summary_exact (h : ∀ c ∈ calls, c.recorded.Fits) :
    ((halfWord ≤ allFiles calls ∨ halfWord ≤ allViolations calls) ∧
        (∃ runs, (after calls).summary? = .error (overflow runs)) ∨
      allFiles calls < halfWord ∧ allViolations calls < halfWord ∧
        ∃ s, (after calls).summary? = .ok s ∧ s.Exact calls) ∧
    ∀ calls' : List RecordCall, calls'.Perm calls →
      (after calls').summary?.map RunSummary.figures =
        (after calls).summary?.map RunSummary.figures := by
  constructor
  · rcases summary?_after h with ⟨hfiles, hfault⟩ | ⟨-, hviolations, hfault⟩ | hexact
    · exact .inl ⟨.inl hfiles, _, hfault⟩
    · exact .inl ⟨.inr hviolations, _, hfault⟩
    · exact .inr hexact
  · intro calls' hperm
    have h' : ∀ c ∈ calls', c.recorded.Fits := fun c hc => h c (hperm.mem_iff.mp hc)
    have hfiles : allFiles calls' = allFiles calls := allFiles_perm hperm
    have hviolations : allViolations calls' = allViolations calls := allViolations_perm hperm
    have hsame := summary?_after h'
    rw [hfiles, hviolations] at hsame
    rcases summary?_after h with ⟨hlarge, hfault⟩ | ⟨hfits, hlarge, hfault⟩ |
      ⟨hfits, hfits', s, hs, hexact⟩
    · rcases hsame with ⟨-, hfault'⟩ | ⟨hfits, -⟩ | ⟨hfits, -⟩
      · rw [hfault, hfault']
      · omega
      · omega
    · rcases hsame with ⟨hlarge', -⟩ | ⟨-, -, hfault'⟩ | ⟨-, hfits', -⟩
      · omega
      · rw [hfault, hfault']
      · omega
    · rcases hsame with ⟨hlarge, -⟩ | ⟨-, hlarge, -⟩ | ⟨-, -, s', hs', hexact'⟩
      · omega
      · omega
      · rw [hs, hs']
        exact congrArg Except.ok (hexact.figures_eq hexact' hperm)

/-- The largest number of files can still be told, one file more cannot. -/
theorem summary_exact_largest :
    let check : Lint.Report :=
      { target := "flow.py", violations := [.of .syntaxError "flow.py" 1 "" ""] }
    let calls : List RecordCall :=
      [⟨.generation 9223372036854775807, "", 0⟩, ⟨.detection check, "", 0⟩]
    (∀ c ∈ calls, c.recorded.Fits) ∧
      (∃ s, (after calls).summary? = .ok s ∧ s.totalFiles = 9223372036854775807 ∧
        s.totalRuns = 2 ∧ s.blockingDetections = 1) ∧
      (∃ runs, (after (⟨.generation 1, "", 0⟩ :: calls)).summary? = .error (overflow runs)) := by
  intro check calls
  have hcalls : ∀ c ∈ calls, c.recorded.Fits := by
    simp [calls, Recorded.Fits, Recorded.files?, halfWord]
  have hmore : ∀ c ∈ (⟨.generation 1, "", 0⟩ :: calls : List RecordCall), c.recorded.Fits :=
    List.forall_mem_cons.mpr ⟨by simp [Recorded.Fits, Recorded.files?, halfWord], hcalls⟩
  refine ⟨hcalls, ?_, ?_⟩
  · rcases (summary_exact hcalls).1 with ⟨hlarge, -⟩ | ⟨-, -, s, hs, hexact⟩
    · exact absurd hlarge (by decide)
    · exact ⟨s, hs, hexact.totalFiles, hexact.totalRuns, hexact.blockingDetections⟩
  · rcases (summary_exact hmore).1 with ⟨-, hfault⟩ | ⟨hfits, -⟩
    · exact hfault
    · exact absurd hfits (by decide)

end RunLog

end AgentFlow
