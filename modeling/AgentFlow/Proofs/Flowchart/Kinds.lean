import AgentFlow.Proofs.Flowchart.Checking
import AgentFlow.Proofs.Flowchart.Nesting

/-!
# Kinds of issues

What is wrong with a diagram depends on where it stands only in the numbers of lines.  The kinds of
its issues are those of its text: the header decides which checks are made, and each check has kinds
of its own.

* `Diagram.map_kind_check`: **the kinds that are found are those of the text.**
* `unbalancedBrackets_mem_iff`, `mismatchedQuotes_mem_iff`: when brackets and quotes are reported.
* `mem_issues_iff`: the issues of a document are those of its diagrams, each under its number.
* `brackets_exact`: **the check of brackets accepts exactly the nested ones, and a document is told
  about all others in its known diagrams.**
-/

namespace AgentFlow.Flowchart

open Text

/-! ### Headers -/

def headerWords? (body : String) : Option (List String) :=
  ((lines body).find? hasInk).map words

/-- The word that tells the type of a diagram. -/
def keyword (header : List String) : String := lower (header.headD "")

def isKnownType (k : String) : Bool := diagramTypes.any fun t => k == t || startsWith k (t ++ "-")

def hasKnownType (body : String) : Bool :=
  (headerWords? body).any fun ws => isKnownType (keyword ws)

def isChartType (k : String) : Bool := k == "flowchart" || k == "graph"

/-- The header that is found comes with its number. -/
theorem map_header? (ls : List String) : (header? ls).map (·.2) = ls.find? hasInk := by
  induction ls with
  | nil => rfl
  | cons l rest ih =>
    rw [header?]
    split
    · next h => rw [List.find?_cons_of_pos h]; rfl
    · next h => rw [List.find?_cons_of_neg h, ← ih, Option.map_map]; rfl

/-! ### Kinds -/

/-- The kinds of what is wrong with lines while `depth` groups are open. -/
def lineKinds (depth : Nat) : List (List Char) → List IssueKind
  | [] => if depth == 0 then [] else [.unmatchedSubgraph]
  | raw :: rest =>
    if opensGroup raw then lineKinds (depth + 1) rest
    else if closesGroup raw then
      if depth == 0 then .unmatchedSubgraph :: lineKinds 0 rest else lineKinds (depth - 1) rest
    else if isBroken raw then .invalidArrow :: lineKinds depth rest
    else lineKinds depth rest

theorem map_kind_checkChartLines (start n depth : Nat) (ls : List (List Char)) :
    (checkChartLines start n depth ls).map (·.kind) = lineKinds depth ls := by
  induction ls generalizing n depth with
  | nil => rw [checkChartLines, lineKinds]; split <;> rfl
  | cons raw rest ih =>
    rw [checkChartLines_cons, lineKinds]
    split
    · exact ih _ _
    · split
      · split
        · exact congrArg (IssueKind.unmatchedSubgraph :: ·) (ih _ _)
        · exact ih _ _
      · split
        · exact congrArg (IssueKind.invalidArrow :: ·) (ih _ _)
        · exact ih _ _

def looseEnds (g : Graph) : List String :=
  (g.arrows.flatMap fun a => [a.source, a.target]).filter fun s => s != "" && !g.nodes.contains s

theorem map_kind_undeclared (start : Nat) (g : Graph) :
    (undeclared start g).map (·.kind) = (looseEnds g).map fun _ => .undeclaredNode := by
  rw [undeclared, looseEnds, List.map_filterMap, ← List.filterMap_eq_map,
    List.filterMap_filter]
  refine congrArg (List.filterMap · _) (funext fun s => ?_)
  by_cases hs : (s != "" && !g.nodes.contains s) = true
  · rw [if_pos hs, if_pos hs]
    rfl
  · rw [if_neg hs, if_neg hs]
    rfl

def bracketKinds (body : String) : List IssueKind :=
  if (unbalanced? body).isNone then [] else [.unbalancedBrackets]

def quoteKinds (body : String) : List IssueKind :=
  if body.toList.count '"' % 2 == 0 then [] else [.mismatchedQuotes]

def directionKinds (header : List String) : List IssueKind :=
  if directions.contains (upper ((header.drop 1).headD "TD")) then [] else [.invalidDiagramType]

def chartKinds (header : List String) (body : String) : List IssueKind :=
  directionKinds header ++ lineKinds 0 (linesOf body.toList) ++
    (looseEnds (Graph.read body)).map fun _ => .undeclaredNode

/-- The kinds of what is wrong with the text of a diagram. -/
def kindsOf (body : String) : List IssueKind :=
  match headerWords? body with
  | none => [.emptyDiagram]
  | some header =>
    if isKnownType (keyword header) then
      bracketKinds body ++ quoteKinds body ++
        if isChartType (keyword header) then chartKinds header body else []
    else [.invalidDiagramType]

/-! ### The parts of a check -/

namespace Diagram

variable (d : Diagram)

def bracketFindings : List Finding :=
  match unbalanced? d.body with
  | some s => [⟨d.line, .unbalancedBrackets, s⟩]
  | none => []

def quoteFindings : List Finding :=
  if d.body.toList.count '"' % 2 == 0 then []
  else [⟨d.line, .mismatchedQuotes, "Unmatched double quotes"⟩]

def directionFindings (offset : Nat) (header : List String) : List Finding :=
  if directions.contains (upper ((header.drop 1).headD "TD")) then []
  else
    [⟨d.line + offset, .invalidDiagramType,
      "Unknown flowchart direction '" ++ (header.drop 1).headD "TD" ++ "'"⟩]

def chartFindings (offset : Nat) (header : List String) : List Finding :=
  d.directionFindings offset header ++ checkChartLines d.line d.line 0 (linesOf d.body.toList) ++
    undeclared d.line (Graph.read d.body)

/-- What is found in a diagram with a header on line `offset` of it. -/
def findings (offset : Nat) (header : List String) : List Finding :=
  if isKnownType (keyword header) then
    d.bracketFindings ++ d.quoteFindings ++
      if isChartType (keyword header) then d.chartFindings offset header else []
  else
    [⟨d.line + offset, .invalidDiagramType, "Unknown diagram type: '" ++ keyword header ++ "'"⟩]

theorem check_eq :
    d.check = (header? (lines d.body)).elim [⟨d.line, .emptyDiagram, "Diagram is empty"⟩]
      fun h => d.findings h.1 (words h.2) := by
  rw [check]
  cases header? (lines d.body) with
  | none => rfl
  | some h =>
    obtain ⟨offset, header⟩ := h
    rw [Option.elim_some, findings]
    cases hknown : isKnownType (keyword (words header)) with
    | false =>
      rw [if_neg Bool.false_ne_true]
      exact if_pos (Bool.not_eq_true' _ ▸ hknown)
    | true =>
      rw [if_pos rfl]
      exact if_neg (by rw [Bool.not_eq_true, Bool.not_eq_false']; exact hknown)

theorem map_kind_bracketFindings :
    d.bracketFindings.map (·.kind) = bracketKinds d.body := by
  rw [bracketFindings, bracketKinds]
  cases unbalanced? d.body <;> rfl

theorem map_kind_quoteFindings : d.quoteFindings.map (·.kind) = quoteKinds d.body := by
  rw [quoteFindings, quoteKinds]
  split <;> rfl

theorem map_kind_directionFindings (offset : Nat) (header : List String) :
    (d.directionFindings offset header).map (·.kind) = directionKinds header := by
  rw [directionFindings, directionKinds]
  split <;> rfl

theorem map_kind_chartFindings (offset : Nat) (header : List String) :
    (d.chartFindings offset header).map (·.kind) = chartKinds header d.body := by
  rw [chartFindings, List.map_append, List.map_append, map_kind_directionFindings,
    map_kind_checkChartLines, map_kind_undeclared, chartKinds]

/-- **The kinds that are found in a diagram are those of its text.** -/
theorem map_kind_check : d.check.map (·.kind) = kindsOf d.body := by
  have hheader : headerWords? d.body = (header? (lines d.body)).map fun h => words h.2 := by
    rw [headerWords?, ← map_header?, Option.map_map]
    rfl
  rw [check_eq, kindsOf, hheader]
  cases header? (lines d.body) with
  | none => rfl
  | some h =>
    rw [Option.elim_some, Option.map_some, findings]
    dsimp only
    split
    · rw [List.map_append, List.map_append, map_kind_bracketFindings, map_kind_quoteFindings]
      split
      · rw [map_kind_chartFindings]
      · rfl
    · rfl

end Diagram

/-! ### Brackets -/

theorem mem_lineKinds {depth : Nat} {ls : List (List Char)} {k : IssueKind}
    (h : k ∈ lineKinds depth ls) : k = .unmatchedSubgraph ∨ k = .invalidArrow := by
  induction ls generalizing depth with
  | nil =>
    rw [lineKinds] at h
    split at h
    · exact absurd h List.not_mem_nil
    · exact .inl (List.mem_singleton.mp h)
  | cons raw rest ih =>
    rw [lineKinds] at h
    split at h
    · exact ih h
    · split at h
      · split at h
        · rcases List.mem_cons.mp h with rfl | h
          · exact .inl rfl
          · exact ih h
        · exact ih h
      · split at h
        · rcases List.mem_cons.mp h with rfl | h
          · exact .inr rfl
          · exact ih h
        · exact ih h

theorem mem_chartKinds {header : List String} {body : String} {k : IssueKind}
    (h : k ∈ chartKinds header body) :
    k = .invalidDiagramType ∨ k = .unmatchedSubgraph ∨ k = .invalidArrow ∨ k = .undeclaredNode := by
  rcases List.mem_append.mp h with h | h
  · rcases List.mem_append.mp h with h | h
    · rw [directionKinds] at h
      split at h
      · exact absurd h List.not_mem_nil
      · exact .inl (List.mem_singleton.mp h)
    · rcases mem_lineKinds h with h | h
      · exact .inr (.inl h)
      · exact .inr (.inr (.inl h))
  · obtain ⟨_, -, rfl⟩ := List.mem_map.mp h
    exact .inr (.inr (.inr rfl))

/-- Only the checks of brackets and quotes report these. -/
theorem mem_kindsOf_iff {k : IssueKind} (hk : k = .unbalancedBrackets ∨ k = .mismatchedQuotes)
    (body : String) :
    k ∈ kindsOf body ↔
      hasKnownType body = true ∧ (k ∈ bracketKinds body ∨ k ∈ quoteKinds body) := by
  rw [kindsOf, hasKnownType]
  cases headerWords? body with
  | none => rcases hk with rfl | rfl <;> simp
  | some header =>
    rw [Option.any_some]
    by_cases hknown : isKnownType (keyword header) = true
    · have hchart : k ∉ (if isChartType (keyword header) then chartKinds header body else []) := by
        split
        · intro h
          rcases hk with rfl | rfl <;> rcases mem_chartKinds h with h | h | h | h <;> cases h
        · exact List.not_mem_nil
      dsimp only
      rw [if_pos hknown, List.mem_append, List.mem_append]
      simp only [hchart, hknown, or_false, true_and]
    · rcases hk with rfl | rfl <;> simp [hknown]

/-- **Brackets are reported exactly for known diagrams whose brackets are not nested.** -/
theorem unbalancedBrackets_mem_iff (body : String) :
    .unbalancedBrackets ∈ kindsOf body ↔ hasKnownType body = true ∧ ¬ Nested (bracketsOf body) := by
  have hquote : .unbalancedBrackets ∉ quoteKinds body := by
    rw [quoteKinds]
    split <;> decide
  rw [mem_kindsOf_iff (.inl rfl), ← unbalanced?_eq_none_iff, bracketKinds]
  cases unbalanced? body <;> simp [hquote]

theorem mismatchedQuotes_mem_iff (body : String) :
    .mismatchedQuotes ∈ kindsOf body ↔
      hasKnownType body = true ∧ body.toList.count '"' % 2 ≠ 0 := by
  have hbracket : .mismatchedQuotes ∉ bracketKinds body := by
    rw [bracketKinds]
    split <;> decide
  rw [mem_kindsOf_iff (.inr rfl), quoteKinds]
  by_cases h : body.toList.count '"' % 2 = 0 <;> simp [hbracket, h]

/-! ### Documents -/

theorem mem_checkAll_iff {n : Nat} {ds : List Diagram} {x : Issue} :
    x ∈ checkAll n ds ↔ ∃ i, ∃ d ∈ ds[i]?, x.diagram = n + i ∧ x.finding ∈ d.check := by
  induction ds generalizing n with
  | nil => simp [checkAll]
  | cons d rest ih =>
    rw [checkAll, List.mem_append, ih, List.mem_map]
    constructor
    · rintro (⟨f, hf, rfl⟩ | ⟨i, d', hd', hi, hf⟩)
      · exact ⟨0, d, rfl, rfl, hf⟩
      · exact ⟨i + 1, d', hd', by omega, hf⟩
    · rintro ⟨i, d', hd', hi, hf⟩
      cases i with
      | zero =>
        obtain rfl : d = d' := Option.some.inj hd'
        exact .inl ⟨x.finding, hf, by rw [← hi.trans (Nat.add_zero n)]⟩
      | succ i => exact .inr ⟨i, d', hd', by omega, hf⟩

/-- **The issues of a document are those of its diagrams, each under its number, and that of a fence
that is never closed.** -/
theorem mem_issues_iff {content : String} {x : Issue} :
    x ∈ (Validation.ofDocument content).issues ↔
      (∃ i, ∃ d ∈ (Diagrams.ofDocument content).found[i]?,
        x.diagram = i + 1 ∧ x.finding ∈ d.check) ∨
      ∃ line ∈ (Diagrams.ofDocument content).unclosed?,
        x = ⟨(Diagrams.ofDocument content).found.length, line, .unclosedFence,
          "Mermaid block is never closed"⟩ := by
  simp only [Validation.ofDocument, List.mem_append, mem_checkAll_iff, Nat.add_comm 1]
  cases (Diagrams.ofDocument content).unclosed? with
  | none => simp
  | some line => simp

/-- **The check of brackets is exact.**  A text passes it exactly if its brackets outside quotes are
nested, and of the diagrams in a document exactly those of a known type whose brackets are not
nested are reported for them. -/
theorem brackets_exact :
    (∀ s : String, unbalanced? s = none ↔ Nested (bracketsOf s)) ∧
      ∀ (content : String) (i : Nat), ∀ d ∈ (Diagrams.ofDocument content).found[i]?,
        ((∃ x ∈ (Validation.ofDocument content).issues,
            x.diagram = i + 1 ∧ x.finding.kind = .unbalancedBrackets) ↔
          hasKnownType d.body = true ∧ ¬ Nested (bracketsOf d.body)) := by
  refine ⟨unbalanced?_eq_none_iff, fun content i d hd => ?_⟩
  rw [← unbalancedBrackets_mem_iff, ← d.map_kind_check, List.mem_map]
  constructor
  · rintro ⟨x, hx, hnumber, hkind⟩
    rcases mem_issues_iff.mp hx with ⟨j, d', hd', hj, hf⟩ | ⟨line, -, rfl⟩
    · obtain rfl : j = i := by omega
      obtain rfl : d' = d := Option.some.inj (hd'.symm.trans hd)
      exact ⟨x.finding, hf, hkind⟩
    · exact absurd hkind nofun
  · rintro ⟨f, hf, hkind⟩
    exact ⟨⟨i + 1, f⟩, mem_issues_iff.mpr (.inl ⟨i, d, hd, rfl, hf⟩), rfl, hkind⟩

/-- A chart with a bracket between quotes, and one with a quote that hides no bracket. -/
def twoCharts : String :=
  "```mermaid\nflowchart TD\n  A[\"(\"]\n```\n\n```mermaid\ngraph LR\n  B([\"B\")]\n```\n"

theorem brackets_exact_twoCharts :
    Nested (bracketsOf "flowchart TD\n  A[\"(\"]") ∧
      (¬ ∃ x ∈ (Validation.ofDocument twoCharts).issues,
        x.diagram = 1 ∧ x.finding.kind = .unbalancedBrackets) ∧
      ¬ Nested (bracketsOf "graph LR\n  B([\"B\")]") ∧
      ∃ x ∈ (Validation.ofDocument twoCharts).issues,
        x.diagram = 2 ∧ x.finding.kind = .unbalancedBrackets := by
  have hfirst : Nested (bracketsOf "flowchart TD\n  A[\"(\"]") :=
    (brackets_exact.1 _).mp (by decide)
  have hsecond : ¬ Nested (bracketsOf "graph LR\n  B([\"B\")]") := fun h =>
    absurd ((brackets_exact.1 _).mpr h) (by decide)
  refine ⟨hfirst, fun h => ?_, hsecond, ?_⟩
  · exact ((brackets_exact.2 twoCharts 0 ⟨2, "flowchart TD\n  A[\"(\"]"⟩ (by decide)).mp h).2 hfirst
  · exact (brackets_exact.2 twoCharts 1 ⟨7, "graph LR\n  B([\"B\")]"⟩ (by decide)).mpr
      ⟨by decide, hsecond⟩

end AgentFlow.Flowchart
