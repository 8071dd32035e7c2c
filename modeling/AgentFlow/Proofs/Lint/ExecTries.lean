import AgentFlow.Proofs.Lint.ExceptionClauses
import AgentFlow.Proofs.Lint.Findings
import AgentFlow.Proofs.Lint.Outline

/-!
# Exceptions that nodes handle

A node leaves it to the flow to try again, so its computing method must not catch what it cannot
deal with itself.  Every `try` in such a method, at any depth, is looked at on its own.

* `ExecTry`: a `try` in a computing method of a node.
* `ExecTry.isSome_finding?_iff`: it is reported exactly if one of its clauses catches too much.
* `filter_check_exceptions`: the findings about exceptions are those about the `try`s.
* `exceptionClauses_exact`: **a `try` is reported exactly if one of its clauses, which are read as
  they are written, catches all exceptions, or one that is not allowed.**
-/

namespace AgentFlow.Lint

open Code

/-! ## `try`s in computing methods -/

/-- The clause catches all exceptions, or one that is not allowed. -/
def ExceptClause.IsBroad : ExceptClause → Prop
  | .bare _ _ => True
  | .catching caught _ _ _ => ∃ e ∈ caught.exceptions, e.name ∉ allowedExceptions

instance (clause : ExceptClause) : Decidable clause.IsBroad :=
  match clause with
  | .bare _ _ => isTrue trivial
  | .catching caught _ _ _ =>
    inferInstanceAs (Decidable (∃ e ∈ caught.exceptions, e.name ∉ allowedExceptions))

def clauseTexts (t : Tree) : List String :=
  (t.children.filter (·.type == .exceptClause)).map (·.text)

def nodesOf (t : Tree) : List Tree := t.addresses.filterMap t.at?

/-- A `try` in a computing method of a node. -/
structure ExecTry where
  node : Tree
  method : Tree
  block : Tree

/-- All of them in the tree of a text, at any depth in the bodies of the methods. -/
def execTries (module : Tree) : List ExecTry :=
  let nodes := (module.children.map undecorated).filter fun c =>
    c.type == .classDefinition && (classFacts c).isNode
  nodes.flatMap fun c =>
    ((methodsOf c).filter fun f => nameOf f == "exec" || nameOf f == "exec_async").flatMap fun f =>
      (((f.child? .body).toList.flatMap nodesOf).filter (·.type == .tryStatement)).map
        (ExecTry.mk c f)

namespace ExecTry

variable (path : String) (x : ExecTry)

def facts : TryFacts := ⟨x.block.line, (clauseTexts x.block).map caughtNames⟩

/-- What is reported about it, if anything. -/
def finding? : Option Violation :=
  if x.facts.broad = [] then none
  else some (handlerFinding path (classFacts x.node) (functionFacts x.method) x.facts)

/-- **A `try` is reported exactly if one of its clauses catches too much.** -/
theorem isSome_finding?_iff {clauses : List ExceptClause}
    (h : clauseTexts x.block = clauses.map (·.text)) :
    (x.finding? path).isSome ↔ ∃ clause ∈ clauses, clause.IsBroad := by
  have hhandlers : x.facts.handlers =
      clauses.map fun clause => clause.exceptions?.map fun es => es.map (·.name) := by
    rw [facts, h, List.map_map]
    exact List.map_congr_left fun clause _ => caughtNames_text clause
  have hsome : (x.finding? path).isSome ↔ ¬ x.facts.broad = [] := by
    rw [finding?]
    by_cases hbroad : x.facts.broad = [] <;> simp [hbroad]
  rw [hsome, TryFacts.broad, hhandlers, List.flatMap_map, List.flatMap_eq_nil_iff]
  push Not
  refine exists_congr fun clause => and_congr_right fun _ => ?_
  cases clause with
  | bare b body => simp [ExceptClause.exceptions?, ExceptClause.IsBroad]
  | catching caught name b body => simp [ExceptClause.exceptions?, ExceptClause.IsBroad]

end ExecTry

theorem tries_functionFacts (f : Tree) : (functionFacts f).tries =
    ((f.child? .body).toList.flatMap nodesOf).filterMap tryFacts? := by
  rw [functionFacts]
  cases f.child? .body with
  | none => rfl
  | some body =>
    have hnodes : (body.nodesIn f).map (·.2) = nodesOf body := by
      rw [Tree.nodesIn_eq, List.map_filterMap, nodesOf]
      exact List.filterMap_congr fun p _ => body.map_place? f p
    simp [hnodes]

theorem name_functionFacts (f : Tree) : (functionFacts f).name = nameOf f := by
  rw [functionFacts]
  cases f.child? .body <;> rfl

theorem execs_classFacts (c : Tree) : (classFacts c).execs =
    ((methodsOf c).filter fun f => nameOf f == "exec" || nameOf f == "exec_async").map
      functionFacts := by
  rw [ClassFacts.execs, methods_classFacts, List.filter_map]
  simp only [Function.comp_def, name_functionFacts]

/-- Of the nodes of a method, those are reported that are a `try` with something to report. -/
theorem map_handlerFinding (path : String) (c f : Tree) (ts : List Tree) :
    ((ts.filterMap tryFacts?).filter (·.broad ≠ [])).map
        (handlerFinding path (classFacts c) (functionFacts f)) =
      ((ts.filter (·.type == .tryStatement)).map (ExecTry.mk c f)).filterMap (·.finding? path) := by
  induction ts with
  | nil => rfl
  | cons t ts ih =>
    rw [List.filter_cons (p := fun t : Tree => t.type == .tryStatement)]
    by_cases ht : (t.type == .tryStatement) = true
    · have hfacts : tryFacts? t = some (ExecTry.mk c f t).facts := by
        rw [tryFacts?, if_pos ht, ExecTry.facts, clauseTexts, List.map_map]
        rfl
      rw [List.filterMap_cons_some hfacts, if_pos ht, List.map_cons]
      by_cases hbroad : (ExecTry.mk c f t).facts.broad = []
      · have hnone : (ExecTry.mk c f t).finding? path = none := if_pos hbroad
        rw [List.filter_cons_of_neg (by simpa using hbroad), ih, List.filterMap_cons_none hnone]
      · have hsome : (ExecTry.mk c f t).finding? path = some
            (handlerFinding path (classFacts c) (functionFacts f) (ExecTry.mk c f t).facts) :=
          if_neg hbroad
        rw [List.filter_cons_of_pos (by simpa using hbroad), List.map_cons, ih,
          List.filterMap_cons_some hsome]
    · have hfacts : tryFacts? t = none := if_neg ht
      rw [List.filterMap_cons_none hfacts, if_neg ht, ih]

/-- **The findings about exceptions are those about the `try`s in computing methods.** -/
theorem filter_check_exceptions (path : String) (s : DetectionSettings) (module : Tree) :
    ((check path s (sourceFacts module)).filter (·.isOf .exceptionHandlingInExec)).Perm
      ((execTries module).filterMap (·.finding? path)) := by
  have hnodes : (sourceFacts module).classes.filter (·.isNode) =
      ((module.children.map undecorated).filter fun c =>
        c.type == .classDefinition && (classFacts c).isNode).map classFacts := by
    rw [sourceFacts, List.filter_map, List.filter_filter]
    simp only [Function.comp_def, Bool.and_comm]
  refine (filter_isOf_check path s _ _).trans (List.Perm.of_eq ?_)
  have hfunctions : (sourceFacts module).functions.flatMap
      (ruleOnFunction path s .exceptionHandlingInExec) = [] :=
    List.flatMap_eq_nil_iff.mpr fun _ _ => rfl
  rw [hfunctions, List.append_nil, hnodes, List.flatMap_map, execTries, List.filterMap_flatMap]
  refine List.flatMap_congr fun c _ => ?_
  rw [ruleOnNode, execs_classFacts, List.flatMap_map, List.filterMap_flatMap]
  refine List.flatMap_congr fun f _ => ?_
  rw [tries_functionFacts, map_handlerFinding]

/-- **Exception clauses are read back, and a `try` in a computing method is reported exactly if one
of its clauses catches all exceptions, or one that is not allowed.** -/
theorem exceptionClauses_exact :
    (∀ clause : ExceptClause,
      caughtNames clause.text = clause.exceptions?.map fun es => es.map (·.name)) ∧
    (∀ (path : String) (s : DetectionSettings) (module : Tree),
      ((check path s (sourceFacts module)).filter (·.isOf .exceptionHandlingInExec)).Perm
        ((execTries module).filterMap (·.finding? path))) ∧
    ∀ (path : String) (x : ExecTry) (clauses : List ExceptClause),
      clauseTexts x.block = clauses.map (·.text) →
        ((x.finding? path).isSome ↔ ∃ clause ∈ clauses, clause.IsBroad) :=
  ⟨caughtNames_text, filter_check_exceptions, fun path x _ h => x.isSome_finding?_iff path h⟩

/-- The clauses `except exceptional.KeyError as e: pass` and
`except (json.JSONDecodeError ,errors.ReadError, ): raise`. -/
def fetchClauses : List ExceptClause :=
  [.catching (.one ⟨" ", by decide⟩ (by decide) ⟨["exceptional"], "KeyError", by decide⟩)
      (some ⟨⟨"", by decide⟩, ⟨"", by decide⟩, "e", by decide⟩) ⟨"", by decide⟩ " pass",
    .catching (.listed ⟨" ", by decide⟩
        ⟨⟨⟨"", by decide⟩, ⟨["json"], "JSONDecodeError", by decide⟩, ⟨" ", by decide⟩⟩,
          [⟨⟨"", by decide⟩, ⟨["errors"], "ReadError", by decide⟩, ⟨"", by decide⟩⟩],
          some ⟨" ", by decide⟩⟩)
      none ⟨"", by decide⟩ " raise"]

/-- A node with these clauses in its method `exec`. -/
def fetchModule : Tree :=
  .node .module .plain 1 7 ""
    [.node .classDefinition .plain 1 7 ""
      [.node .identifier .name 1 1 "FetchNode" [],
        .node .arguments .superclasses 1 1 "(Node)" [.node .identifier .plain 1 1 "Node" []],
        .node .block .body 2 7 ""
          [.node .functionDefinition .plain 2 7 ""
            [.node .identifier .name 2 2 "exec" [],
              .node .block .body 3 7 ""
                [.node .tryStatement .plain 3 7 ""
                  [.node .block .body 4 4 "" [],
                    .node .exceptClause .plain 5 5 "except exceptional.KeyError as e: pass" [],
                    .node .exceptClause .plain 6 7
                      "except (json.JSONDecodeError ,errors.ReadError, ): raise" []]]]]]]

theorem exceptionClauses_exact_fetch :
    (fetchClauses.map fun clause => caughtNames clause.text) =
        [some ["KeyError"], some ["JSONDecodeError", "ReadError"]] ∧
      ∃ x, execTries fetchModule = [x] ∧ (x.finding? "nodes.py").isSome := by
  obtain ⟨hread, -, hreport⟩ := exceptionClauses_exact
  refine ⟨?_, _, rfl, ?_⟩
  · simp only [hread]
    decide
  · refine (hreport "nodes.py" _ fetchClauses ?_).mpr (by decide)
    decide +kernel

end AgentFlow.Lint
