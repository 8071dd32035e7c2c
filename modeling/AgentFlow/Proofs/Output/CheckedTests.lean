import AgentFlow.Output.Tests
import AgentFlow.Proofs.Output.CodeLines

/-!
# Generated tests pass a check

The files of tests for the nodes, the flow and the interface.

* `tolerated_nodeTestsFile`, `tolerated_flowTestsFile`, `tolerated_apiTestsFile`: **these files pass
  a check.**
-/

namespace AgentFlow.Code

open Text Lint Phrase Output

variable {s t : String} {ts : List String} {body : List String} {w : WorkflowSpec}

/-! ### Statements of tests -/

/-- A test is a function without parameters. -/
theorem laid_test (k : Nat) (hs : IsName s)
    (hheader : "def ".toList ++ (s.toList ++ "():".toList) = t.toList) (hne : body ≠ [])
    (hbody : Laid (Everywhere IsCalm) 4 body) (ht : Laid (StatementFits {}) 0 ts) :
    Laid (StatementFits {}) 0 (List.replicate k "" ++ t :: (body ++ ts)) := by
  have hsignature : IsSignature s [] none := ⟨hs, by simp, by simp⟩
  refine .function k hsignature (by simp) (fun rs hrs => statementFits_function hrs s none) ?_ hne
    hbody ht
  rw [chars_function, ← hheader]
  simp

/-- Two values are asserted to be equal. -/
theorem isLine_assertEquals {p q : Phrase} (hp : p.IsOperand) (hq : q.IsOperand)
    (hdots : (q.body == "...") = false) : IsLine (worded "assert" (equals p q)) :=
  isLine_assert (isItem_equals hp hq (by simpa using hdots)).isExpression

theorem isOperand_plain (s : String) (hs : isPlainText s = true) :
    (literal ("\"" ++ s ++ "\"")).IsOperand :=
  isOperand_literal (isText_plain s hs)

def made (s : String) : Phrase := (name s).call []

theorem isPrimary_made (hs : IsName s) : (made s).IsPrimary := isPrimary_call hs (by simp)

@[simp] theorem flat_made : (made s).Flat := by simp [made]

@[simp] theorem chars_made : (made s).chars = s.toList ++ ['(', ')'] := by simp [made]

@[simp] theorem calm_made : (made s).Calm := by simp [made]

@[simp] theorem mutates_made : (made s).mutates = false := by
  simp [made, mutates, call, Tree.type]

/-! ### Tests of nodes -/

def finished (p : Phrase) : Phrase := (name "asyncio").method "run" [p]

theorem isPrimary_finished {p : Phrase} (h : p.IsExpression) : (finished p).IsPrimary :=
  isPrimary_methodOf (by simp) (by simp) h

def postCall (async : Bool) : Phrase :=
  let ps := [name "shared", constant "None", literal "\"result\""]
  if async then finished ((name "node").method "post_async" ps) else (name "node").method "post" ps

theorem isExpression_postCall (async : Bool) : (postCall async).IsExpression := by
  have hargs : ∀ q ∈ [name "shared", constant "None", literal "\"result\""], q.IsArgument := by
    rw [List.forall_mem_cons, List.forall_mem_cons, List.forall_mem_singleton]
    exact ⟨(isExpression_name (by simp)).isArgument, isExpression_none.isArgument,
      (isExpression_plain "result" (isPlainText_ofList rfl)).isArgument⟩
  have hnode : (name "node").IsPrimary := isPrimary_name (by simp)
  cases async with
  | false => exact (hnode.method (s := "post") (by simp) hargs).isExpression
  | true =>
    exact (isPrimary_finished
      (hnode.method (s := "post_async") (by simp) hargs).isExpression).isExpression

@[simp] theorem flat_postCall (async : Bool) : (postCall async).Flat := by
  cases async <;> simp [postCall, finished]

@[simp] theorem calm_postCall (async : Bool) : (postCall async).Calm := by
  cases async <;> simp [postCall, finished, mutatingMethods]

@[simp] theorem chars_postCall (async : Bool) : (postCall async).chars =
    (if async then "asyncio.run(node.post_async(shared, None, \"result\"))"
      else "node.post(shared, None, \"result\")").toList := by
  cases async <;> simp [postCall, finished]

theorem laid_postBody {n : NodeSpec} (h : IsName n.name) (async : Bool) :
    Laid (Everywhere IsCalm) 4 ["    node = " ++ n.name ++ "()", "    shared = \x7b\x7d",
      "    action = " ++ (if async then "asyncio.run(node.post_async(shared, None, \"result\"))"
        else "node.post(shared, None, \"result\")"),
      "    assert action == \"default\"",
      "    assert shared[" ++ quoted n.resultKey ++ "] == \"result\""] := by
  have hstored := (isPrimary_name (s := "shared") (by simp)).item
    (isExpression_text (isText_quoted n.resultKey))
  exact .simple 0 ((isExpression_name (s := "node") (by simp)).set
    (isPrimary_made h).isExpression rfl rfl) (by simp) (by simp) <|
    .simple 0 ((isExpression_name (s := "shared") (by simp)).set isOperand_braces.isExpression rfl
      rfl) (by simp) (by simp) <|
    .simple 0 ((isExpression_name (s := "action") (by simp)).set (isExpression_postCall async) rfl
      rfl) (by simp) (by simp) <|
    .simple 0 (isLine_assertEquals (isPrimary_name (s := "action") (by simp)).isOperand
      (isOperand_plain "default" (isPlainText_ofList rfl)) rfl) (by simp) (by simp) <|
    .simple 0 (isLine_assertEquals hstored.isOperand
      (isOperand_plain "result" (isPlainText_ofList rfl)) rfl) (by simp) (by simp) laid_nil

/-- A node computes.  Its class may have the name `match`, and so the statement may only stand
before a definition. -/
theorem exists_execCall {n : NodeSpec} (h : IsName n.name) (async : Bool) : ∃ q : Phrase,
    q.IsStatement 8 true ∧ q.Calm ∧ q.chars =
      (if async then "asyncio.run(" ++ n.name ++ "().exec_async(None))"
        else n.name ++ "().exec(None)").toList := by
  have hargs : ∀ q ∈ [constant "None"], q.IsExpression :=
    List.forall_mem_singleton.mpr isExpression_none
  cases async with
  | false =>
    exact ⟨(made n.name).method "exec" [constant "None"],
      isStatement_called h (f := "exec") (by simp) hargs (by simp),
      by simp [mutatingMethods], by simp⟩
  | true =>
    have hcall := (isPrimary_finished ((isPrimary_made h).method (s := "exec_async") (by simp)
      fun q hq => (hargs q hq).isArgument).isExpression).isExpression
    exact ⟨finished ((made n.name).method "exec_async" [constant "None"]),
      ((hcall.alone rfl).isStatement (by simp [finished])).closes,
      by simp [finished, mutatingMethods], by simp [finished]⟩

theorem laid_execBody {n : NodeSpec} (h : IsName n.name) (async : Bool) : ∃ rs, IsBody 0 rs ∧
    (∀ r ∈ rs, Everywhere IsCalm r.phrase.tree) ∧ charsOf (lines rs) = lineChars
      ["    with pytest.raises(NotImplementedError):",
        "        " ++ if async then "asyncio.run(" ++ n.name ++ "().exec_async(None))"
          else n.name ++ "().exec(None)"] := by
  obtain ⟨q, hq, hcalm, hchars⟩ := exists_execCall h async
  let qs : List Line := [⟨.breaks 0 8, q, true⟩]
  have hqs : IsBody 4 qs :=
    isBody_rows (List.cons_ne_nil _ _) (List.forall_mem_singleton.mpr (isRow hq)) (.singleton _)
  have hraises : ((name "pytest").method "raises" [name "NotImplementedError"]).IsExpression :=
    (isPrimary_methodOf (by simp) (by simp) (isExpression_name (by simp))).isExpression
  have hwith := hraises.withStatement (by simp) hqs
  refine ⟨[⟨.breaks 0 4, withStatement _ qs, closesLines qs⟩],
    isBody_rows (List.cons_ne_nil _ _) (List.forall_mem_singleton.mpr (isRow hwith)) (.singleton _),
    List.forall_mem_singleton.mpr ?_, ?_⟩
  · rw [everywhere_tree, calm_withStatement]
    exact ⟨by simp [mutatingMethods], List.forall_mem_singleton.mpr hcalm⟩
  · simp [qs, Lead.chars, hchars]

/-- The lines of the tests of a node. -/
theorem testLines_eq (n : NodeSpec) (async : Bool) (ha : n.kind.isAsync = async) : n.testLines =
    ("def test_" ++ snakeCase n.name ++ "_post_stores_result():") ::
      (["    node = " ++ n.name ++ "()", "    shared = \x7b\x7d",
        "    action = " ++ (if async then "asyncio.run(node.post_async(shared, None, \"result\"))"
          else "node.post(shared, None, \"result\")"),
        "    assert action == \"default\"",
        "    assert shared[" ++ quoted n.resultKey ++ "] == \"result\""] ++
      "" :: "" :: ("def test_" ++ snakeCase n.name ++ "_exec_is_pending():") ::
      (["    with pytest.raises(NotImplementedError):",
        "        " ++ if async then "asyncio.run(" ++ n.name ++ "().exec_async(None))"
          else n.name ++ "().exec(None)"] ++ [])) := by
  rw [NodeSpec.testLines, ha]
  cases async <;> rfl

/-- The tests of a node. -/
theorem laid_nodeTests {n : NodeSpec} (h : IsNodeName n.name) :
    LaidFunctions (["", ""] ++ n.testLines) := by
  have hname := isName_of_isClassName h.isClassName
  have hpost := isName_nodeTest h (s := "_post_stores_result") (by decide)
  have hexec := isName_nodeTest h (s := "_exec_is_pending") (by decide)
  rw [testLines_eq n _ rfl]
  obtain ⟨rs, hrs, -, hcalm, hlines⟩ := (laid_postBody hname n.kind.isAsync).body (by simp)
  obtain ⟨qs, hqs, hqcalm, hqlines⟩ := laid_execBody hname n.kind.isAsync
  exact .cons 2 hpost (by simp) hrs hcalm hlines <|
    .cons 2 hexec (by simp) hqs hqcalm hqlines laidFunctions_nil

/-- **The file of tests for the nodes passes a check.** -/
theorem tolerated_nodeTestsFile (h : w.Valid) (hname : NullFree w.name) (path : String) :
    ∀ v ∈ detect path {} w.nodeTestsFile, v.Tolerated := by
  have hnames : ∀ s ∈ w.nodeNames, IsName s := fun s hs =>
    isName_of_isClassName (h.isNodeName hs).isClassName
  obtain ⟨t, ts, hts⟩ := List.exists_cons_of_ne_nil fun hnil : w.nodeNames = [] =>
    h.nodes_ne_nil (List.map_eq_nil_iff.mp hnil)
  have htests : LaidFunctions (w.nodes.flatMap fun n => ["", ""] ++ n.testLines) :=
    .flatMap fun n hn => laid_nodeTests (h.nodeNames n hn)
  have hdoc := isText_docAround "Node tests for " "." hname (isPlainText_ofList rfl)
    (isPlainText_ofList rfl)
  have hnodes : Laid (StatementFits {}) 0
      ["", "import pytest", "", "from nodes import " ++ commas w.nodeNames] := by
    rw [hts] at hnames ⊢
    exact .simple 1 ⟨isSimple_importOf (s := "pytest") (by simp), rfl⟩
      (statementFits_plain (by decide)) (by simp) <|
      .imports 1 "nodes" [] t ts (by simp) hnames statementFits_plain (by simp [commas]) laid_nil
  have himports : Laid (StatementFits {}) 0
      ("" :: ((if w.hasAsync then ["import asyncio", ""] else []) ++
      ["import pytest", "", "from nodes import " ++ commas w.nodeNames])) := by
    split
    · exact .simple 1 ⟨isSimple_importOf (s := "asyncio") (by simp), rfl⟩
        (statementFits_plain (by decide)) (by simp) hnodes
    · exact hnodes
  exact tolerated_of_laid hdoc himports htests path

/-! ### Tests of the flow -/

/-- An attribute of the flow. -/
theorem isPrimary_flow (hs : IsName s) : ((name "flow").attr s).IsPrimary :=
  (isPrimary_name (by simp)).attr hs 0 0

/-- A flow is made first. -/
theorem laid_makeFlow (hs : IsName s) (ht : Laid (Everywhere IsCalm) 4 ts) :
    Laid (Everywhere IsCalm) 4 (("    flow = " ++ s ++ "()") :: ts) :=
  .simple 0 ((isExpression_name (s := "flow") (by simp)).set (isPrimary_made hs).isExpression rfl
    rfl) (by simp) (by simp) ht

theorem laid_registers (hs : IsName s) (ns : List String) : Laid (Everywhere IsCalm) 4
    ["    flow = " ++ s ++ "()",
      "    assert list(flow.nodes) == [" ++ commas (ns.map quoted) ++ "]"] := by
  have hlist := (isPrimary_onOne (s := "list") (by simp)
    (isPrimary_flow (s := "nodes") (by simp)).isExpression).isOperand
  have hnames : (list (ns.map fun n => literal (quoted n))).IsOperand :=
    (isPrimary_collection (.inr rfl) (List.forall_mem_map.mpr fun n _ =>
      isExpression_text (isText_quoted n))).isOperand
  exact laid_makeFlow hs <| .simple 0 (isLine_assertEquals hlist hnames rfl) (by simp)
    (by simp [commas, String.toList_intercalate, Function.comp_def]) laid_nil

theorem laid_routes (hs : IsName s) : Laid (Everywhere IsCalm) 4
    ["    flow = " ++ s ++ "()", "    assert set(flow.edges) == set(flow.nodes)",
      "    assert all(routes[\"error\"] == \"error_handler\" for routes in flow.edges.values())"]
    := by
  have hset {f : String} (hf : IsName f) : ((name "set").call [(name "flow").attr f]).IsOperand :=
    (isPrimary_onOne (by simp) (isPrimary_flow hf).isExpression).isOperand
  have hroute : (equals ((name "routes").item (literal "\"error\""))
      (literal "\"error_handler\"")).IsExpression :=
    (isItem_equals ((isPrimary_name (by simp)).item
      (isExpression_plain "error" (isPlainText_ofList rfl))).isOperand
      (isOperand_plain "error_handler" (isPlainText_ofList rfl)) (by decide)).isExpression
  have hvalues : ((((name "flow").attr "edges").attr "values").call []).IsExpression :=
    (((isPrimary_flow (by simp)).attr (by simp) 0 0).call (by simp)).isExpression
  have hall := (isPrimary_name (s := "all") (by simp)).callEach hroute (s := "routes")
    (by simp) hvalues
  exact laid_makeFlow hs <|
    .simple 0 (isLine_assertEquals (hset (f := "edges") (by simp))
      (hset (f := "nodes") (by simp)) rfl) (by simp) (by simp) <|
    .simple 0 (isLine_assert hall.isExpression) (by simp [mutatingMethods]) (by simp) laid_nil

theorem laid_failure (hs : IsName s) : Laid (Everywhere IsCalm) 4
    ["    flow = " ++ s ++ "()", "    shared = \x7b\x7d",
      "    assert flow.error_handler(shared, ValueError(\"boom\")) == \"error\"",
      "    assert shared[\"error\"] == \"boom\""] := by
  have hboom := isPrimary_onOne (s := "ValueError") (by simp)
    (isExpression_plain "boom" (isPlainText_ofList rfl))
  have hhandler : ((name "flow").method "error_handler"
      [name "shared", (name "ValueError").call [literal "\"boom\""]]).IsPrimary := by
    refine (isPrimary_name (by simp)).method (by simp) ?_
    rw [List.forall_mem_cons, List.forall_mem_singleton]
    exact ⟨(isExpression_name (by simp)).isArgument, hboom.isExpression.isArgument⟩
  have herror := (isPrimary_name (s := "shared") (by simp)).item
    (isExpression_plain "error" (isPlainText_ofList rfl))
  exact laid_makeFlow hs <|
    .simple 0 ((isExpression_name (s := "shared") (by simp)).set isOperand_braces.isExpression rfl
      rfl) (by simp) (by simp) <|
    .simple 0 (isLine_assertEquals hhandler.isOperand
      (isOperand_plain "error" (isPlainText_ofList rfl)) rfl) (by simp [mutatingMethods])
      (by simp) <|
    .simple 0 (isLine_assertEquals herror.isOperand
      (isOperand_plain "boom" (isPlainText_ofList rfl)) rfl) (by simp) (by simp) laid_nil

/-- **The file of tests for the flow passes a check.** -/
theorem tolerated_flowTestsFile (hname : NullFree w.name) (path : String) :
    ∀ v ∈ detect path {} w.flowTestsFile, v.Tolerated := by
  have hflow := isName_flowClass w
  have himport : ∀ n ∈ [w.flowClass], IsName n := List.forall_mem_singleton.mpr hflow
  have hnames : (w.nodes.map fun n => quoted n.name) = w.nodeNames.map quoted := by
    simp [WorkflowSpec.nodeNames]
  rw [WorkflowSpec.flowTestsFile, hnames]
  refine tolerated_of_open
    (isText_docAround _ _ hname (isPlainText_ofList rfl) (isPlainText_ofList rfl)) ?_ path
  exact .imports 1 "flow" [] w.flowClass [] (by simp) himport statementFits_plain (by simp) <|
    laid_test 2 (s := "test_flow_registers_every_node") (by simp) (by simp) (by simp)
      (laid_registers hflow _) <|
    laid_test 2 (s := "test_every_step_routes_errors") (by simp) (by simp) (by simp)
      (laid_routes hflow) <|
    .last 2 <| laid_test 2 (s := "test_error_handler_records_failure") (by simp) (by simp)
      (by simp) (laid_failure hflow) laid_nil

/-! ### Tests of the interface -/

/-- A response has a status. -/
theorem laid_status : Laid (Everywhere IsCalm) 4 ["    assert response.status_code == 200"] := by
  have hstatus := (isPrimary_name (s := "response") (by simp)).attr (s := "status_code")
    (by simp) 0 0
  have hnumber : (number "200").IsOperand := isOperand_number (.inl ⟨by decide, by decide⟩)
  exact .simple 0 (isLine_assertEquals hstatus.isOperand hnumber rfl) (by simp) (by simp) laid_nil

/-- A response to a request without a body. -/
theorem laid_asked {l : String} (h : IsText s.toList)
    (hline : "    response = client.get(" ++ s ++ ")" = l) :
    Laid (Everywhere IsCalm) 4 [l, "    assert response.status_code == 200"] := by
  subst hline
  have hget : ((name "client").method "get" [literal s]).IsExpression :=
    (isPrimary_methodOf (by simp) (by simp) (isExpression_text h)).isExpression
  exact .simple 0 ((isExpression_name (s := "response") (by simp)).set hget rfl rfl)
    (by simp [mutatingMethods]) (by simp) laid_status

/-- The status of a response is one of two. -/
theorem laid_eitherStatus : Laid (Everywhere IsCalm) 4
    ["    # 501 until every node's exec is implemented",
      "    assert response.status_code in (200, 501)"] := by
  have hnumber : ∀ s, s.toList ≠ [] → (∀ c ∈ s.toList, c.isDigit = true) →
      (number s).IsExpression :=
    fun s hne hs => (isOperand_number (.inl ⟨hne, hs⟩)).isExpression
  have hpair : (tuple [number "200", number "501"]).IsOperand := by
    refine (isPrimary_collection (.inl rfl) ?_).isOperand
    rw [List.forall_mem_cons, List.forall_mem_singleton]
    exact ⟨hnumber "200" (by decide) (by decide), hnumber "501" (by decide) (by decide)⟩
  have hstatus := (isPrimary_name (s := "response") (by simp)).attr (s := "status_code")
    (by simp) 0 0
  have hin : (chain ((name "response").attr "status_code")
      [⟨1, "in", .blanks 1, tuple [number "200", number "501"]⟩]).IsItem := by
    refine hstatus.isOperand.chain (List.forall_mem_singleton.mpr ?_)
    exact ⟨show "in" ∈ operators by decide, hpair, rfl, by simp, by decide⟩
  exact .commented (u := " 501 until every node's exec is implemented")
    (isLine_assert hin.isExpression) (by simp) ⟨by decide, by decide⟩ (by simp)
    (by simp [Lead.chars, Lead.newline]) laid_nil

variable {e : EndpointSpec}

/-- No method of a request has the name of a method that changes something in place. -/
theorem calm_lowerMethod : ∀ s ∈ mutatingMethods, upper s ∉ httpMethods := by decide

/-- The test of an endpoint. -/
theorem laid_endpointTest (h : e.Valid) : Laid (StatementFits {}) 0 (["", ""] ++ e.testLines) := by
  have htest := isName_test (isName_handler h).chars.2
  have hpath : IsText (quoted e.path).toList := isText_quoted _
  have hbody : (dict .line (literal "\"input\"", literal "\"example\"") []).IsExpression := by
    refine (isOperand_dict ?_ ⟨rfl, rfl, rfl⟩).isExpression
    exact List.forall_mem_singleton.mpr ⟨isExpression_plain "input" (isPlainText_ofList rfl),
      isExpression_plain "example" (isPlainText_ofList rfl)⟩
  have hrequest : ((name "client").method e.lowerMethod [literal (quoted e.path),
      named "json" (dict .line (literal "\"input\"", literal "\"example\"") [])]).IsExpression := by
    refine ((isPrimary_name (by simp)).method (isName_lowerMethod h) ?_).isExpression
    rw [List.forall_mem_cons, List.forall_mem_singleton]
    exact ⟨(isExpression_text hpath).isArgument, hbody.keyword (by simp) rfl⟩
  rw [EndpointSpec.testLines]
  split
  · exact .last 2 (laid_test 2 htest (by simp) (by simp) (laid_asked hpath rfl) laid_nil)
  · have hcalm : e.lowerMethod ∉ mutatingMethods := fun hmem =>
      calm_lowerMethod _ hmem (upper_lowerMethod h)
    have hsent := (isExpression_name (s := "response") (by simp)).set hrequest rfl rfl
    exact .last 2 <| laid_test 2 htest (by simp) (by simp)
      (.simple 0 hsent (by simp [hcalm]) (by simp) laid_eitherStatus) laid_nil

/-- **The file of tests for the interface passes a check.** -/
theorem tolerated_apiTestsFile (h : w.Valid) (hname : NullFree w.name) (path : String) :
    ∀ v ∈ detect path {} w.apiTestsFile, v.Tolerated := by
  have htests : Laid (StatementFits {}) 0
      (w.servedEndpoints.flatMap fun e => ["", ""] ++ e.testLines) :=
    .flatMap fun e he => laid_endpointTest (valid_servedEndpoints h e he)
  have hclient := isPrimary_onOne (s := "TestClient") (by simp)
    (isExpression_name (s := "app") (by simp))
  rw [WorkflowSpec.apiTestsFile]
  refine tolerated_of_open
    (isText_docAround _ _ hname (isPlainText_ofList rfl) (isPlainText_ofList rfl)) ?_ path
  exact .imports 1 "fastapi" ["testclient"] "TestClient" [] (by simp) (by simp)
    statementFits_plain (by simp) <|
    .imports 1 "main" [] "app" [] (by simp) (by simp) statementFits_plain (by simp) <|
    .simple 1 ((isExpression_name (s := "client") (by simp)).set hclient.isExpression rfl rfl)
      (statementFits_plain (by decide)) (by simp) <|
    laid_test 2 (s := "test_health") (by simp) (by simp) (by simp)
      (laid_asked (isText_plain "/health" (isPlainText_ofList rfl)) rfl) htests

end AgentFlow.Code
