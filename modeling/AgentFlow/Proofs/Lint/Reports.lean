import AgentFlow.Lint.Report.Printer
import AgentFlow.Proofs.Data.SortedMaps

/-!
# The counts and files of a report

A report is a list of findings.  Its counts, its answer whether they block and the findings of each
file are computed from the list one by one, and agree with it and with each other.

* `Report.counted`: **the counts of severities and rules add up, and what blocks is said alike.**
* `Report.grouped`: **every finding stands once under its path, in the order of the list.**
-/

namespace AgentFlow.Lint

open Data

/-! ### Counts -/

/-- Every finding has one of the severities. -/
theorem Severity.sum_count (found : List Violation) :
    (Severity.all.map fun s => found.countP (·.severity == s)).sum = found.length := by
  induction found with
  | nil => rfl
  | cons v rest ih =>
    simp only [all, List.map_cons, List.map_nil, List.sum_cons, List.sum_nil, List.countP_cons,
      List.length_cons] at ih ⊢
    cases v.severity <;> simp <;> omega

theorem Severity.countP_isBlocking (found : List Violation) :
    found.countP (·.severity.isBlocking) =
      found.countP (·.severity == critical) + found.countP (·.severity == high) := by
  induction found with
  | nil => rfl
  | cons v rest ih =>
    simp only [List.countP_cons, ih]
    cases v.severity <;> simp [isBlocking] <;> omega

namespace Report

variable (r : Report)

theorem ruleCounts_eq_gather :
    r.ruleCounts = .gather (·.ruleId) 0 (fun n _ => n + 1) r.violations := rfl

theorem byFile_eq_gather :
    r.byFile = .gather (·.path) [] (fun found v => found ++ [v]) r.violations := rfl

/-- The counts of a report agree with the list of its findings, and what is said about findings that
block agrees with the counts. -/
structure Counted (r : Report) : Prop where
  severities : (r.severityCounts.map (·.2)).sum = r.violations.length
  rules : r.ruleCounts.values.sum = r.violations.length
  rule : ∀ id, (r.ruleCounts.get? id).getD 0 = r.violations.countP (·.ruleId = id)
  blockingCount : r.blockingCount = r.count .critical + r.count .high
  hasBlocking : r.hasBlocking = true ↔ 0 < r.blockingCount
  /-- The JSON text has a summary, which says whether a finding blocks. -/
  json : ∃ payload, r.json = Json.pretty payload ∧
    payload.fields? ["summary"] = some [some r.summary] ∧
    r.summary.fields? ["blocking"] = some [some (.bool r.hasBlocking)]
  exitCode : r.exitCode = 1 ↔ r.hasBlocking = true

/-- **The counts agree with the list and with each other.** -/
theorem counted : r.Counted where
  severities := by
    rw [severityCounts, List.map_map]
    exact Severity.sum_count r.violations
  rules := by
    calc r.ruleCounts.values.sum
      _ = (r.violations.map fun _ => 1).sum := by
        rw [ruleCounts_eq_gather]
        exact SortedMap.sum_gather (f := id) rfl (fun _ _ => rfl) r.violations
      _ = r.violations.length := by rw [List.map_const', List.sum_replicate_nat, Nat.mul_one]
  rule id := by
    rw [ruleCounts_eq_gather, SortedMap.getD_gather, List.foldl_add_const,
      List.countP_eq_length_filter, Nat.zero_add, Nat.one_mul]
  blockingCount := Severity.countP_isBlocking r.violations
  hasBlocking := by rw [hasBlocking, blockingCount, List.any_eq_true, List.countP_pos_iff]
  json := ⟨_, rfl, rfl, rfl⟩
  exitCode := by
    unfold exitCode
    cases r.hasBlocking <;> simp

/-! ### The findings of the files -/

/-- The files of a report share out the list of its findings. -/
structure Grouped (r : Report) : Prop where
  sorted : r.byFile.keys.Pairwise (· < ·)
  paths : ∀ path, path ∈ r.byFile.keys ↔ ∃ v ∈ r.violations, v.path = path
  /-- The findings of a file stand in the order of the list. -/
  found : ∀ e ∈ r.byFile.entries, e.2 = r.violations.filter (·.path = e.1)
  perm : (r.byFile.entries.flatMap (·.2)).Perm r.violations

/-- **The files share out the list**, each in its order. -/
theorem grouped : r.Grouped where
  sorted := r.byFile.pairwise_keys
  paths _ := by rw [byFile_eq_gather, SortedMap.mem_keys_gather]
  found e he := by
    have hget := SortedMap.getD_gather Violation.path [] (fun found v => found ++ [v]) r.violations
      e.1
    rw [← byFile_eq_gather, (r.byFile.get?_eq_some_iff e.1 e.2).mpr he, Option.getD_some] at hget
    rw [hget, List.foldl_append_eq_append, ← List.flatMap_def, List.flatMap_singleton',
      List.nil_append]
  perm := by
    refine List.perm_iff_count.mpr fun v => ?_
    calc (r.byFile.entries.flatMap (·.2)).count v
      _ = (r.byFile.entries.map fun e => e.2.count v).sum := List.count_flatMap
      _ = (r.violations.map fun x => [x].count v).sum := by
        rw [byFile_eq_gather]
        have hstep (found : List Violation) (x : Violation) :
            (found ++ [x]).count v = found.count v + [x].count v := List.count_append
        exact SortedMap.sum_gather (f := List.count v) (d := []) rfl hstep r.violations
      _ = (r.violations.flatMap fun x => [x]).count v := List.count_flatMap.symm
      _ = r.violations.count v := by rw [List.flatMap_singleton']

theorem mem_of_mem_byFile {e : String × List Violation} (he : e ∈ r.byFile.entries) :
    (∃ v ∈ r.violations, v.path = e.1) ∧ ∀ v ∈ e.2, v ∈ r.violations := by
  refine ⟨(r.grouped.paths e.1).mp (List.mem_map_of_mem he), fun v hv => ?_⟩
  rw [r.grouped.found e he] at hv
  exact (List.mem_filter.mp hv).1

end Report

end AgentFlow.Lint
