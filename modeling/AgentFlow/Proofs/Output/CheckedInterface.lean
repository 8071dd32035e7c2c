import AgentFlow.Output.Interface
import AgentFlow.Proofs.Output.Annotation
import AgentFlow.Proofs.Output.CodeLines

/-!
# Generated interfaces pass a check

The files of data models, routes and the application.

* `IsHint`: the texts that stand for the type of a shared value.
* `tolerated_modelsFile`, `tolerated_routerFile`, `tolerated_mainFile`: **these files pass a
  check.**
-/

namespace AgentFlow

open Text

/-- The text stands for the type of a shared value: it is a type or empty, with blanks around it. -/
def IsHint (s : String) : Prop := trim s = "" ∨ IsAnnotation .whole (trim s)

namespace Code

open Data Lint Phrase Output

variable {s t : String} {ts : List String} {body : List String} {w : WorkflowSpec}

/-! ### Data models -/

/-- A field of a model. -/
theorem laid_annotate (k : Nat) {p v : Phrase} (hs : IsName s) (hp : p.IsExpression)
    (hv : v.IsExpression)
    (hchars : "    ".toList ++ (s.toList ++ ": ".toList ++ p.chars ++ " = ".toList ++ v.chars) =
      t.toList) (hflat : p.Flat ∧ v.Flat) (ht : Laid (fun _ => True) 4 ts) :
    Laid (fun _ => True) 4 (List.replicate k "" ++ t :: ts) := by
  refine .cons k [] (p := annotate s p v) (isStatement_annotate hs hp hv (by simpa using hflat))
    trivial ?_ ht
  rw [chars_annotate, lineChars_nil, List.append_nil, ← hchars]
  rfl

/-- A value that may be missing. -/
theorem isExpression_optional {p : Phrase} (h : p.IsExpression) :
    ((name "Optional").item p).IsExpression :=
  ((isPrimary_name (by simp)).item h).isExpression

theorem laid_field (k : Nat) {f : String × String} (hname : IsName f.1) (hhint : IsHint f.2)
    (ht : Laid (fun _ => True) 4 ts) :
    Laid (fun _ => True) 4 (List.replicate k "" ++ fieldLine f :: ts) := by
  rw [fieldLine]
  split
  · exact laid_annotate k hname (isExpression_name (s := "Any") (by simp)) isExpression_none
      (by simp) (by simp) ht
  · next hplain =>
    have htype : IsAnnotation .whole (trim f.2) :=
      hhint.resolve_left fun he => hplain (by rw [he]; rfl)
    obtain ⟨p, hp⟩ := exists_typePhrase htype
    exact laid_annotate k hname (isExpression_optional hp.reads) isExpression_none
      (by simp [hp.chars]) (by simp [hp.flat]) ht

theorem laid_store (hnames : ∀ k ∈ w.sharedStore.keys, IsName k)
    (hhints : ∀ f ∈ w.sharedStore.entries, IsHint f.2) :
    Laid (fun _ => True) 4 ("" :: w.storeLines) := by
  have hfields : ∀ f ∈ w.sharedStore.entries, IsName f.1 ∧ IsHint f.2 := fun f hf =>
    ⟨hnames f.1 (List.mem_map_of_mem hf), hhints f hf⟩
  rw [WorkflowSpec.storeLines, SortedMap.isEmpty]
  cases hentries : w.sharedStore.entries with
  | nil => exact .simple 1 ⟨isSimple_bare (w := "pass") (by decide), rfl⟩ trivial (by simp) laid_nil
  | cons f fs =>
    rw [hentries, List.forall_mem_cons] at hfields
    exact laid_field 1 hfields.1.1 hfields.1.2 <| .map fun g hg =>
      laid_field 0 (hfields.2 g hg).1 (hfields.2 g hg).2 laid_nil

/-- A class of data. -/
theorem laid_model (k : Nat) (hs : IsName s)
    (hheader : "class ".toList ++ (s.toList ++ "(BaseModel):".toList) = t.toList) (hne : body ≠ [])
    (hbody : Laid (fun _ => True) 4 body) (ht : Laid (StatementFits {}) 0 ts) :
    Laid (StatementFits {}) 0 (List.replicate k "" ++ t :: (body ++ ts)) := by
  have hbase : ∀ c ∈ some "BaseModel", endsWith (lastSegment c) "Node" = false := by decide
  exact .classOf k hs (b := some "BaseModel") (by simp)
    (fun _ _ => statementFits_class hbase) (by simpa using hheader) hne hbody ht

/-- The fields of what the workflow is asked and answers. -/
theorem laid_messages : Laid (StatementFits {}) 0
    ["", "", "class WorkflowRequest(BaseModel):",
      "    input: Any = Field(..., description=\"Workflow input\")", "", "",
      "class WorkflowResponse(BaseModel):", "    output: Any = None",
      "    error: Optional[str] = None"] := by
  have hany : (name "Any").IsExpression := isExpression_name (by simp)
  have htext := isExpression_plain "Workflow input" (isPlainText_ofList rfl)
  have hfield : ((name "Field").call
      [dots, named "description" (literal "\"Workflow input\"")]).IsExpression := by
    refine (isPrimary_call (by simp) ?_).isExpression
    rw [List.forall_mem_cons, List.forall_mem_singleton]
    exact ⟨isOperand_dots.isExpression.isArgument, htext.keyword (by simp) rfl⟩
  have hstring : ((name "Optional").item (name "str")).IsExpression :=
    isExpression_optional (isExpression_name (by simp))
  have hrequest : Laid (fun _ => True) 4
      ["    input: Any = Field(..., description=\"Workflow input\")"] :=
    laid_annotate 0 (s := "input") (by simp) hany hfield (by simp) (by simp) laid_nil
  have hresponse : Laid (fun _ => True) 4
      ["    output: Any = None", "    error: Optional[str] = None"] :=
    laid_annotate 0 (s := "output") (by simp) hany isExpression_none (by simp) (by simp) <|
      laid_annotate 0 (s := "error") (by simp) hstring isExpression_none (by simp) (by simp)
        laid_nil
  exact laid_model 2 (s := "WorkflowRequest") (by simp) (by simp) (by simp) hrequest <| .last 2 <|
    laid_model 2 (s := "WorkflowResponse") (by simp) (by simp) (by simp) hresponse laid_nil

/-- **The file of data models passes a check.** -/
theorem tolerated_modelsFile (h : w.Valid) (hname : NullFree w.name)
    (hhints : ∀ f ∈ w.sharedStore.entries, IsHint f.2) (path : String) :
    ∀ v ∈ detect path {} w.modelsFile, v.Tolerated := by
  have hnames : ∀ k ∈ w.sharedStore.keys, IsName k := fun k hk =>
    isName_of_isFunctionName (h.keys k hk)
  have hstore : Laid (fun _ => True) 4
      (("    \"\"\"Values exchanged between nodes through the shared store.\"\"\"") ::
        "" :: w.storeLines) :=
    .note 0 "Values exchanged between nodes through the shared store." trivial
      (isPlainText_ofList rfl) (by simp [docString]) (laid_store hnames hhints)
  have hlines : Laid (StatementFits {}) 0 (["", "from typing import Any, Optional", "",
      "from pydantic import BaseModel, Field", "", "", "class SharedStore(BaseModel):",
      "    \"\"\"Values exchanged between nodes through the shared store.\"\"\"", ""] ++
      w.storeLines ++ ["", "", "class WorkflowRequest(BaseModel):",
      "    input: Any = Field(..., description=\"Workflow input\")", "", "",
      "class WorkflowResponse(BaseModel):", "    output: Any = None",
      "    error: Optional[str] = None"]) := by
    refine .imports 1 "typing" [] "Any" ["Optional"] (by simp) (by simp) statementFits_plain
      (by simp) ?_
    refine .imports 1 "pydantic" [] "BaseModel" ["Field"] (by simp) (by simp)
      statementFits_plain (by simp) ?_
    exact laid_model 2 (s := "SharedStore") (by simp) (by simp) (by simp) hstore laid_messages
  exact tolerated_of_open
    (isText_docAround _ _ hname (isPlainText_ofList rfl) (isPlainText_ofList rfl)) hlines path

/-! ### Routes -/

variable {e : EndpointSpec} {ps : List Phrase} {r : Option Phrase}

/-- A handler of requests, in which nothing opens a branch or changes anything in place. -/
theorem laid_handler {d : Phrase} {u : String} (hd : d.IsExpression)
    (hdots : (d.body == "...") = false) (hrole : d.tree.role = .plain) (h : IsSignature s ps r)
    (hflat : d.Flat ∧ (∀ p ∈ ps, p.Flat) ∧ ∀ p ∈ r, p.Flat)
    (hdecorator : '@' :: d.chars = t.toList)
    (hheader : "async def ".toList ++ s.toList ++
      '(' :: [',', ' '].intercalate (ps.map (·.chars)) ++
        ')' :: (r.map fun t => " -> ".toList ++ t.chars).getD [] ++ [':'] = u.toList)
    (hne : body ≠ []) (hbody : Laid (Everywhere IsCalm) 4 body) :
    Laid (StatementFits {}) 0 ("" :: "" :: t :: u :: body) := by
  have hhandler := Laid.decorated 2 hd (by simpa using hdots) h hflat
    (fun rs hrs => statementFits_decorated hrs s r (p := Phrase.asyncFunction s ps r rs) rfl
      (by rw [hrole]; exact nofun) 0)
    hdecorator (by simpa using hheader) hne hbody laid_nil
  rwa [List.append_nil] at hhandler

theorem laid_getLines (h : e.Valid) (hnull : NullFree e.summary)
    (hget : (e.lowerMethod == "get") = true) (w : WorkflowSpec) :
    Laid (StatementFits {}) 0 ("" :: "" :: w.handlerLines e) := by
  have hdoc : IsText (docString (docText e.summary)).toList :=
    isText_docString (inside_docText hnull)
  have hpath : (literal (quoted e.path)).IsExpression := isExpression_text (isText_quoted _)
  have hroute : (((name "router").attr "get").call [literal (quoted e.path)]).IsExpression :=
    (((isPrimary_name (by simp)).attr (by simp) 0 0).call
      (List.forall_mem_singleton.mpr hpath.isArgument)).isExpression
  have hdict : (name "dict").IsExpression := isExpression_name (by simp)
  have hsignature : IsSignature e.handler [] (some (name "dict")) :=
    ⟨isName_handler h, by simp, by simpa using hdict⟩
  have hanswer : (dict .line (literal "\"workflow\"", literal (quoted w.name))
      [(literal "\"status\"", literal "\"ready\"")]).IsExpression := by
    refine (isOperand_dict ?_ ⟨rfl, rfl, rfl⟩).isExpression
    rw [List.forall_mem_cons, List.forall_mem_singleton]
    exact ⟨⟨isExpression_plain "workflow" (isPlainText_ofList rfl),
      isExpression_text (isText_quoted _)⟩, isExpression_plain "status" (isPlainText_ofList rfl),
      isExpression_plain "ready" (isPlainText_ofList rfl)⟩
  rw [WorkflowSpec.handlerLines, if_pos hget]
  have hbody : Laid (Everywhere IsCalm) 4 ["    " ++ docString (docText e.summary),
      "    return \x7b\"workflow\": " ++ quoted w.name ++ ", \"status\": \"ready\"\x7d"] :=
    .text 0 hdoc calm_literal (by simp) <|
      .simple 0 (isLine_return hanswer) (by simp) (by simp) laid_nil
  exact laid_handler hroute rfl rfl hsignature (by simp) (by simp) (by simp) (by simp) hbody

/-- A call that answers what is not implemented yet with a fault. -/
theorem laid_attempt {p : Phrase} (h : p.IsExpression) (hflat : p.Flat) (hcalm : p.Calm)
    (hs : p.chars = s.toList) (hstart : p.startsPlainly = true)
    (ht : Laid (Everywhere IsCalm) 4 ts) :
    Laid (Everywhere IsCalm) 4 ("    try:" :: ("        " ++ s) ::
      "    except NotImplementedError as exc:" ::
      "        raise HTTPException(status_code=501, detail=str(exc)) from exc" :: ts) := by
  have hnumber : (number "501").IsExpression :=
    (isOperand_number (.inl ⟨by decide, by decide⟩)).isExpression
  have hexc : (name "exc").IsExpression := isExpression_name (by simp)
  have hdetail : ((name "str").call [name "exc"]).IsExpression :=
    (isPrimary_call (by simp) (List.forall_mem_singleton.mpr hexc.isArgument)).isExpression
  have hfault : ((name "HTTPException").call [named "status_code" (number "501"),
      named "detail" ((name "str").call [name "exc"])]).IsExpression := by
    refine (isPrimary_call (by simp) ?_).isExpression
    rw [List.forall_mem_cons, List.forall_mem_singleton]
    exact ⟨hnumber.keyword (by simp) rfl, hdetail.keyword (by simp) rfl⟩
  have hraise : Laid (Everywhere IsCalm) 8
      ["        raise HTTPException(status_code=501, detail=str(exc)) from exc"] :=
    .simple 0 ⟨hfault.raiseFrom hexc, rfl⟩ (by simp) (by simp) laid_nil
  have hclauses : LaidClauses (Everywhere IsCalm) 4 ["    except NotImplementedError as exc:",
      "        raise HTTPException(status_code=501, detail=str(exc)) from exc"] :=
    .cons (p := (name "NotImplementedError").aliased "exc")
      ((isPrimary_name (by simp)).isOperand.isItem.aliased (by simp)) (by simp)
      (fun rs hrs => calm_clause.mpr ⟨by simp, hrs⟩) (by simp) (by simp) hraise laidClauses_nil
  exact .tried 0 (fun rs cs hrs hcs => calm_try.mpr ⟨hrs, hcs⟩) (by simp) (by simp)
    (.simple 0 (h.alone hstart) hcalm (by simp [hs, hflat]) laid_nil) hclauses ht

theorem laid_attempted (async : Bool) (ht : Laid (Everywhere IsCalm) 4 ts) :
    Laid (Everywhere IsCalm) 4 ("    try:" ::
      (if async then "        await flow.run_async(shared)" else "        flow.run(shared)") ::
      "    except NotImplementedError as exc:" ::
      "        raise HTTPException(status_code=501, detail=str(exc)) from exc" :: ts) := by
  have hargs : ∀ p ∈ [name "shared"], p.IsArgument :=
    List.forall_mem_singleton.mpr (isExpression_name (by simp)).isArgument
  have hrun {f : String} (hf : IsName f) :
      (((name "flow").attr f).call [name "shared"]).IsPrimary :=
    ((isPrimary_name (by simp)).attr hf 0 0).call hargs
  cases async with
  | false =>
    exact laid_attempt (s := "flow.run(shared)") (hrun (f := "run") (by simp)).isExpression
      (by simp) (by simp [mutatingMethods]) (by simp) rfl ht
  | true =>
    exact laid_attempt (s := "await flow.run_async(shared)")
      (hrun (f := "run_async") (by simp)).isOperand.awaited.isExpression (by simp)
      (by simp [mutatingMethods]) (by simp) rfl ht

theorem laid_postLines (h : e.Valid) (hnull : NullFree e.summary)
    (hget : ¬ (e.lowerMethod == "get") = true) (w : WorkflowSpec) :
    Laid (StatementFits {}) 0 ("" :: "" :: w.handlerLines e) := by
  have hdoc : IsText (docString (docText e.summary)).toList :=
    isText_docString (inside_docText hnull)
  have hroute : (((name "router").attr e.lowerMethod).call
      [literal (quoted e.path),
        named "response_model" (name "WorkflowResponse")]).IsExpression := by
    refine (((isPrimary_name (by simp)).attr (isName_lowerMethod h) 0 0).call ?_).isExpression
    rw [List.forall_mem_cons, List.forall_mem_singleton]
    exact ⟨(isExpression_text (isText_quoted _)).isArgument,
      (isExpression_name (by simp)).keyword (by simp) rfl⟩
  have hsignature : IsSignature e.handler [typed "request" (name "WorkflowRequest")]
      (some (name "WorkflowResponse")) :=
    ⟨isName_handler h,
      List.forall_mem_singleton.mpr ((isExpression_name (by simp)).typed (by simp)),
      by simpa using isExpression_name (s := "WorkflowResponse") (by simp)⟩
  have hshared :
      (dict .line (literal "\"input\"", (name "request").attr "input") []).IsExpression := by
    refine (isOperand_dict ?_ ⟨rfl, rfl, rfl⟩).isExpression
    exact List.forall_mem_singleton.mpr ⟨isExpression_plain "input" (isPlainText_ofList rfl),
      ((isPrimary_name (by simp)).attr (by simp) 0 0).isExpression⟩
  have hflow : ((name w.flowClass).call []).IsExpression :=
    (isPrimary_call (isName_flowClass w) (by simp)).isExpression
  have hresponse : ((name "WorkflowResponse").call [named "output" (stored "\"output\""),
      named "error" (stored "\"error\"")]).IsExpression := by
    refine (isPrimary_call (by simp) ?_).isExpression
    rw [List.forall_mem_cons, List.forall_mem_singleton]
    have houtput := isPrimary_stored (isText_plain "output" (isPlainText_ofList rfl))
    have herror := isPrimary_stored (isText_plain "error" (isPlainText_ofList rfl))
    exact ⟨houtput.isExpression.keyword (by simp) rfl, herror.isExpression.keyword (by simp) rfl⟩
  have hreturn : Laid (Everywhere IsCalm) 4
      ["    return WorkflowResponse(output=shared.get(\"output\"), error=shared.get(\"error\"))"] :=
    .simple 0 (isLine_return hresponse) (by simp [stored, mutatingMethods]) (by simp [stored])
      laid_nil
  have hbody := Laid.text (s := "    " ++ docString (docText e.summary)) 0 hdoc calm_literal
    (by simp) <|
    .simple (s := "    shared = \x7b\"input\": request.input\x7d") 0
      ((isExpression_name (s := "shared") (by simp)).set hshared rfl rfl) (by simp) (by simp) <|
    .simple (s := "    flow = " ++ w.flowClass ++ "()") 0
      ((isExpression_name (s := "flow") (by simp)).set hflow rfl rfl) (by simp) (by simp) <|
    laid_attempted w.hasAsync hreturn
  rw [WorkflowSpec.handlerLines, if_neg hget]
  exact laid_handler hroute rfl rfl hsignature (by simp) (by simp) (by simp) (by simp) hbody

/-- **The file of routes passes a check.** -/
theorem tolerated_routerFile (h : w.Valid) (hname : NullFree w.name)
    (hnull : ∀ e ∈ w.servedEndpoints, NullFree e.summary) (path : String) :
    ∀ v ∈ detect path {} w.routerFile, v.Tolerated := by
  have hhandlers : Laid (StatementFits {}) 0
      (w.servedEndpoints.flatMap fun e => ["", ""] ++ w.handlerLines e) := by
    refine .flatMap fun e he => ?_
    by_cases hget : (e.lowerMethod == "get") = true
    · exact laid_getLines (valid_servedEndpoints h e he) (hnull e he) hget w
    · exact laid_postLines (valid_servedEndpoints h e he) (hnull e he) hget w
  have hrouter : ((name "APIRouter").call []).IsExpression :=
    (isPrimary_call (by simp) (by simp)).isExpression
  have hflow : ∀ n ∈ [w.flowClass], IsName n := List.forall_mem_singleton.mpr (isName_flowClass w)
  rw [WorkflowSpec.routerFile]
  refine tolerated_of_open
    (isText_docAround _ _ hname (isPlainText_ofList rfl) (isPlainText_ofList rfl)) ?_ path
  exact .imports 1 "fastapi" [] "APIRouter" ["HTTPException"] (by simp) (by simp)
    statementFits_plain (by simp) <|
    .imports 1 "flow" [] w.flowClass [] (by simp) hflow statementFits_plain (by simp) <|
    .imports 0 "schemas" ["models"] "WorkflowRequest" ["WorkflowResponse"] (by simp) (by simp)
      statementFits_plain (by simp) <|
    .simple 1 ((isExpression_name (s := "router") (by simp)).set hrouter rfl rfl)
      (statementFits_plain (by decide)) (by simp) hhandlers

/-! ### The application -/

theorem laid_health : Laid (StatementFits {}) 0
    ["", "", "@app.get(\"/health\")", "async def health() -> dict:",
      "    return \x7b\"status\": \"ok\"\x7d"] := by
  have hroute : (((name "app").attr "get").call [literal "\"/health\""]).IsExpression :=
    (((isPrimary_name (by simp)).attr (by simp) 0 0).call
      (List.forall_mem_singleton.mpr
        (isExpression_plain "/health" (isPlainText_ofList rfl)).isArgument)).isExpression
  have hsignature : IsSignature "health" [] (some (name "dict")) :=
    ⟨(by simp), by simp, by simpa using isExpression_name (s := "dict") (by simp)⟩
  have hanswer : (dict .line (literal "\"status\"", literal "\"ok\"") []).IsExpression := by
    refine (isOperand_dict ?_ ⟨rfl, rfl, rfl⟩).isExpression
    exact List.forall_mem_singleton.mpr ⟨isExpression_plain "status" (isPlainText_ofList rfl),
      isExpression_plain "ok" (isPlainText_ofList rfl)⟩
  have hbody : Laid (Everywhere IsCalm) 4 ["    return \x7b\"status\": \"ok\"\x7d"] :=
    .simple 0 (isLine_return hanswer) (by simp) (by simp) laid_nil
  exact laid_handler hroute rfl rfl hsignature (by simp) (by simp) (by simp) (by simp) hbody

theorem laid_serve : Laid (fun _ => True) 4
    ["    import uvicorn", "", "    uvicorn.run(app, host=\"0.0.0.0\", port=8000)"] := by
  have hrun : (((name "uvicorn").attr "run").call [name "app", named "host" (literal "\"0.0.0.0\""),
      named "port" (number "8000")]).IsExpression := by
    refine (((isPrimary_name (by simp)).attr (by simp) 0 0).call ?_).isExpression
    rw [List.forall_mem_cons, List.forall_mem_cons, List.forall_mem_singleton]
    exact ⟨(isExpression_name (by simp)).isArgument,
      (isExpression_plain "0.0.0.0" (isPlainText_ofList rfl)).keyword (by simp) rfl,
      (isOperand_number (.inl ⟨by decide, by decide⟩)).isExpression.keyword (by simp) rfl⟩
  exact .simple 0 ⟨isSimple_importOf (s := "uvicorn") (by simp), rfl⟩ trivial (by simp) <|
    .simple 1 (hrun.alone rfl) trivial (by simp) laid_nil

/-- **The file of the application passes a check.** -/
theorem tolerated_mainFile (hname : NullFree w.name) (path : String) :
    ∀ v ∈ detect path {} w.mainFile, v.Tolerated := by
  have happ : ((name "FastAPI").call [named "title" (literal (quoted w.name)),
      named "description" (literal (quoted w.description))]).IsExpression := by
    refine (isPrimary_call (by simp) ?_).isExpression
    rw [List.forall_mem_cons, List.forall_mem_singleton]
    exact ⟨isArgument_text (by simp) (isText_quoted _),
      isArgument_text (by simp) (isText_quoted _)⟩
  have hinclude : (((name "app").attr "include_router").call [name "router"]).IsExpression :=
    (((isPrimary_name (by simp)).attr (by simp) 0 0).call
      (List.forall_mem_singleton.mpr (isExpression_name (by simp)).isArgument)).isExpression
  have hend : Laid (StatementFits {}) 0 (["", "", "@app.get(\"/health\")",
      "async def health() -> dict:", "    return \x7b\"status\": \"ok\"\x7d"] ++
      ("" :: "" :: "if __name__ == \"__main__\":" :: ["    import uvicorn", "",
        "    uvicorn.run(app, host=\"0.0.0.0\", port=8000)"])) :=
    laid_health.append (.main 2 statementFits_plain (by simp) (by simp) laid_serve)
  rw [WorkflowSpec.mainFile]
  refine tolerated_of_open
    (isText_docAround _ _ hname (isPlainText_ofList rfl) (isPlainText_ofList rfl)) ?_ path
  exact .imports 1 "fastapi" [] "FastAPI" [] (by simp) (by simp) statementFits_plain (by simp) <|
    .imports 1 "router" [] "router" [] (by simp) (by simp) statementFits_plain (by simp) <|
    .simple 1 ((isExpression_name (s := "app") (by simp)).set happ rfl rfl)
      (statementFits_plain (show NodeType.assignment ∉ definitionTypes by decide)) (by simp) <|
    .simple 0 (hinclude.alone rfl) (statementFits_plain (by decide)) (by simp) hend

end Code

end AgentFlow
