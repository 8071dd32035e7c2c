import AgentFlow.Output.Interface
import AgentFlow.Output.Tests
import AgentFlow.Proofs.Output.CodeNames
import AgentFlow.Proofs.Output.Signatures

/-!
# The handlers of requests

The requests to an endpoint are handled by a function that is named after the method and the path of
the endpoint.  Endpoints are told apart by their methods and paths as they are, but the name has
only the words of the path in lower case.  This file reads the names back from the file of routes
and says which endpoints share one.

* `EndpointSpec.slugWords`: what the name of a handler keeps of the path.
* `EndpointSpec.handler_eq_iff`: **two endpoints share a handler exactly if their methods and these
  words are the same.**
* `Valid.nodup_handlers`: endpoints with plain paths share none.
* `Valid.signatures_routerFile`, `Valid.signatures_apiTestsFile`: the functions in the files of
  routes and of tests.
* `handlers_distinct_iff`: they are distinct exactly if no two endpoints share a handler.
-/

namespace AgentFlow

open Text Output Code

/-! ### Names of handlers -/

namespace EndpointSpec

/-- The words of letters and digits in the path, in lower case, or one word for the root. -/
def slugWords (e : EndpointSpec) : List String :=
  match alphanumericWords e.path with
  | [] => ["root"]
  | words => words.map lower

/-- The two endpoints have the same method and the same words in their paths, up to case. -/
def SharesHandler (e f : EndpointSpec) : Prop :=
  e.lowerMethod = f.lowerMethod ∧ e.slugWords = f.slugWords

instance (e f : EndpointSpec) : Decidable (e.SharesHandler f) := inferInstanceAs (Decidable (_ ∧ _))

variable {e f : EndpointSpec}

theorem handler_eq (e : EndpointSpec) :
    e.handler = "_".intercalate (e.lowerMethod :: e.slugWords) := by
  rw [handler, slugWords]
  cases alphanumericWords e.path with
  | nil => rw [String.intercalate_cons_cons, String.intercalate_singleton]
  | cons word words => exact String.intercalate_cons_cons.symm

theorem not_mem_lowerMethod (h : e.Valid) : '_' ∉ e.lowerMethod.toList := by
  have hplain : ∀ m ∈ httpMethods, '_' ∉ m.toList := by decide
  intro hmem
  refine hplain _ (upper_lowerMethod h) ?_
  rw [upper, String.toList_ofList]
  exact List.mem_flatMap.mpr ⟨'_', hmem, by decide⟩

theorem not_mem_slugWords (e : EndpointSpec) : ∀ word ∈ e.slugWords, '_' ∉ word.toList := by
  rw [slugWords]
  split
  · decide
  · intro word hword hmem
    obtain ⟨v, hv, rfl⟩ := List.mem_map.mp hword
    have hchars := alphanum_of_mem_alphanumericWords hv
    rw [toList_lower hchars] at hmem
    obtain ⟨c, hc, hlower⟩ := List.mem_map.mp hmem
    refine toLower_ne_underscore ?_ hlower
    rintro rfl
    exact absurd (hchars _ hc) (by decide)

/-- **Two endpoints share a handler exactly if their methods and the words of their paths are the
same.** -/
theorem handler_eq_iff (he : e.Valid) (hf : f.Valid) :
    e.handler = f.handler ↔ e.SharesHandler f := by
  have hplain : ∀ g : EndpointSpec, g.Valid →
      ∀ l ∈ (g.lowerMethod :: g.slugWords).map String.toList, '_' ∉ l := by
    intro g hg
    rw [List.forall_mem_map]
    exact List.forall_mem_cons.mpr ⟨not_mem_lowerMethod hg, g.not_mem_slugWords⟩
  rw [handler_eq, handler_eq, ← String.toList_inj, String.toList_intercalate,
    String.toList_intercalate]
  refine (intercalate_inj (hplain e he) (hplain f hf) (by simp) (by simp)).trans ?_
  rw [List.map_inj_right fun _ _ => String.toList_inj.mp, List.cons.injEq, SharesHandler]

end EndpointSpec

/-! ### Plain paths -/

/-- A word of small letters and digits. -/
structure IsPathWord (word : String) : Prop where
  ne_empty : word ≠ ""
  chars : ∀ c ∈ word.toList, c.isAlphanum = true ∧ c.isUpper ≠ true

def pathOf (words : List String) : String := String.join (words.map ("/" ++ ·))

/-- Words after separators are the pieces between them. -/
theorem filter_splitOnP (p : Char → Bool) {sep : Char} (hsep : p sep = true)
    {words : List (List Char)} (h : ∀ word ∈ words, word ≠ [] ∧ ∀ c ∈ word, p c = false) :
    ((words.flatMap (sep :: ·)).splitOnP p).filter (· != []) = words := by
  induction words using List.reverseRecOn with
  | nil => simp
  | append_singleton words word ih =>
    rw [List.forall_mem_append, List.forall_mem_singleton] at h
    rw [List.flatMap_append, List.flatMap_singleton, List.splitOnP_append_cons _ _ hsep,
      List.filter_append, ih h.1, List.splitOnP_eq_singleton h.2.2]
    simp [h.2.1]

theorem alphanumericWords_pathOf {words : List String} (h : ∀ word ∈ words, IsPathWord word) :
    alphanumericWords (pathOf words) = words := by
  have hwords : ∀ word ∈ words.map String.toList,
      word ≠ [] ∧ ∀ c ∈ word, (!c.isAlphanum) = false := by
    rw [List.forall_mem_map]
    intro word hword
    refine ⟨fun hnil => (h word hword).ne_empty (String.toList_eq_nil_iff.mp hnil), fun c hc => ?_⟩
    rw [((h word hword).chars c hc).1]
    rfl
  have hpath : (pathOf words).toList = (words.map String.toList).flatMap ('/' :: ·) := by
    rw [pathOf, String.toList_join, List.flatMap_map, List.flatMap_map]
    exact congrArg (List.flatMap · words) (funext fun word => by simp)
  have hslash : ('/'.isAlphanum.not) = true := by decide
  have hpieces := filter_splitOnP (fun c => !c.isAlphanum) hslash hwords
  have hempty : ((· != "") ∘ String.ofList) = ((· != []) : List Char → Bool) := by
    funext cs
    rw [Function.comp_apply, Bool.eq_iff_iff, bne_iff_ne, bne_iff_ne, ne_eq, ← String.toList_inj,
      String.toList_ofList]
    rfl
  rw [alphanumericWords, pieces, splitWhere_eq_splitOnP, hpath, List.filter_map, hempty, hpieces,
    List.map_map]
  exact (List.map_congr_left fun s _ => String.ofList_toList).trans (List.map_id _)

/-- **The name of a handler keeps a path of plain words as it is.** -/
theorem EndpointSpec.slugWords_eq {e : EndpointSpec} {words : List String} (hne : words ≠ [])
    (h : ∀ word ∈ words, IsPathWord word) (hpath : e.path = pathOf words) :
    e.slugWords = words := by
  have hlower : words.map lower = words := by
    refine (List.map_congr_left fun word hword => ?_).trans (List.map_id _)
    have hchars := (h word hword).chars
    rw [← String.toList_inj, toList_lower fun c hc => (hchars c hc).1]
    exact (List.map_congr_left fun c hc => toLower_of_not_isUpper (hchars c hc).2).trans
      (List.map_id _)
  rw [slugWords, hpath, alphanumericWords_pathOf h]
  cases words with
  | nil => exact absurd rfl hne
  | cons word words => exact hlower

def IsPlainPath (path : String) : Prop :=
  ∃ words, words ≠ [] ∧ (∀ word ∈ words, IsPathWord word) ∧ path = pathOf words

/-- Endpoints with plain paths share a handler only if they answer to the same requests. -/
theorem EndpointSpec.SharesHandler.route_eq {e f : EndpointSpec} (h : e.SharesHandler f)
    (he : e.Valid) (hf : f.Valid) (heplain : IsPlainPath e.path) (hfplain : IsPlainPath f.path) :
    e.route = f.route := by
  obtain ⟨words, hne, hwords, hpath⟩ := heplain
  obtain ⟨words', hne', hwords', hpath'⟩ := hfplain
  have hmethod : e.upperMethod = f.upperMethod := by
    rw [← (lowerMethod_cases he).2.2, h.1, (lowerMethod_cases hf).2.2]
  have hsame : words = words' := by
    rw [← slugWords_eq hne hwords hpath, h.2, slugWords_eq hne' hwords' hpath']
  rw [route, route, hmethod, hpath, hpath', hsame]

/-! ### Functions of the files -/

variable {e : EndpointSpec} {w : WorkflowSpec}

namespace Code

theorem ne_of_isIdentifierChar {c d : Char} (hc : isIdentifierChar c = true)
    (hd : isIdentifierChar d = false) : c ≠ d := by
  rintro rfl
  exact Bool.false_ne_true (hd.symm.trans hc)

/-- A name is on one line, and it has no bracket. -/
theorem IsName.plain {s : String} (h : IsName s) : OneLine s ∧ '(' ∉ s.toList := by
  have hchars : ∀ c ∈ s.toList, isIdentifierChar c = true := fun c hc => (h.chars.2 c hc).1
  refine ⟨oneLine_iff.mpr fun c hc => ⟨?_, ?_⟩, fun hopen => ?_⟩
  · exact ne_of_isIdentifierChar (hchars c hc) (by decide)
  · exact ne_of_isIdentifierChar (hchars c hc) (by decide)
  · exact ne_of_isIdentifierChar (hchars _ hopen) (by decide) rfl

end Code

def EndpointSpec.handlerParameters (e : EndpointSpec) : String :=
  if e.lowerMethod == "get" then "" else "request: WorkflowRequest"

theorem signaturesOf_handlerLines (h : e.Valid) (w : WorkflowSpec) :
    signaturesOf (w.handlerLines e) = [⟨e.handler, e.handlerParameters⟩] := by
  have hname := (isName_handler h).plain.2
  rw [WorkflowSpec.handlerLines, EndpointSpec.handlerParameters]
  split
  · have hheader : signature? ("async def " ++ e.handler ++ "() -> dict:") =
        some ⟨e.handler, ""⟩ :=
      signature?_asyncHeader " -> dict:".toList hname (by decide) (by simp)
    have hroute : ∀ l ∈ ["@router.get(" ++ quoted e.path ++ ")"],
        ∀ c ∈ l.toList.head?, c ≠ 'd' ∧ c ≠ 'a' := by simp
    refine (signaturesOf_append [_] _).trans ?_
    rw [signaturesOf_eq_nil hroute, List.nil_append, signaturesOf_cons_some hheader]
    exact congrArg (_ :: ·) (signaturesOf_eq_nil (by simp))
  · have hheader : signature? ("async def " ++ e.handler ++
        "(request: WorkflowRequest) -> WorkflowResponse:") =
        some ⟨e.handler, "request: WorkflowRequest"⟩ :=
      signature?_asyncHeader " -> WorkflowResponse:".toList hname (by decide) (by simp)
    have hroute : ∀ l ∈ ["@router." ++ e.lowerMethod ++ "(" ++ quoted e.path ++
        ", response_model=WorkflowResponse)"], ∀ c ∈ l.toList.head?, c ≠ 'd' ∧ c ≠ 'a' := by simp
    refine (signaturesOf_append [_] _).trans ?_
    rw [signaturesOf_eq_nil hroute, List.nil_append, signaturesOf_cons_some hheader]
    refine congrArg (_ :: ·) (signaturesOf_eq_nil ?_)
    simp only [List.forall_mem_cons]
    cases w.hasAsync <;> simp

theorem oneLine_handlerLines (h : e.Valid) (w : WorkflowSpec) :
    ∀ l ∈ w.handlerLines e, OneLine l := by
  have hname := (isName_handler h).plain.1
  have hmethod := (isName_lowerMethod h).plain.1
  have hrun : OneLine (if w.hasAsync then "        await flow.run_async(shared)"
      else "        flow.run(shared)") := by split <;> decide
  rw [WorkflowSpec.handlerLines]
  split
  all_goals
    simp only [List.forall_mem_cons, List.not_mem_nil, false_imp_iff, implies_true, docString,
      oneLine_append, hname, hmethod, hrun, oneLine_docText, oneLine_quotedText, oneLine_flowClass,
      and_true, true_and, and_assoc]
    repeat refine ⟨oneLine_ofList (by decide), ?_⟩
    exact oneLine_ofList (by decide)

theorem EndpointSpec.Valid.signaturesOf_testLines (h : e.Valid) :
    signaturesOf e.testLines = [⟨"test_" ++ e.handler, ""⟩] := by
  have hname : '(' ∉ ("test_" ++ e.handler).toList := by
    rw [String.toList_append, List.mem_append, not_or]
    exact ⟨by decide, (isName_handler h).plain.2⟩
  have hheader : signature? ("def test_" ++ e.handler ++ "():") =
      some ⟨"test_" ++ e.handler, ""⟩ :=
    signature?_header [':'] hname (by decide) (by simp)
  rw [EndpointSpec.testLines, signaturesOf_cons_some hheader]
  refine congrArg (_ :: ·) (signaturesOf_eq_nil ?_)
  split <;> simp

theorem EndpointSpec.Valid.oneLine_testLines (h : e.Valid) : ∀ l ∈ e.testLines, OneLine l := by
  have hname := (isName_handler h).plain.1
  have hmethod := (isName_lowerMethod h).plain.1
  rw [EndpointSpec.testLines]
  split
  all_goals
    simp only [List.forall_mem_cons, List.not_mem_nil, false_imp_iff, implies_true, oneLine_append,
      hname, hmethod, oneLine_quotedText, and_true, and_assoc]
    repeat refine ⟨oneLine_ofList (by decide), ?_⟩
    exact oneLine_ofList (by decide)

namespace WorkflowSpec

/-- The lines of routes before the handlers. -/
def routerHead (w : WorkflowSpec) : List String :=
  [docString ("API routes for " ++ docText w.name ++ "."), "",
    "from fastapi import APIRouter, HTTPException", "", "from flow import " ++ w.flowClass,
    "from schemas.models import WorkflowRequest, WorkflowResponse", "", "router = APIRouter()"]

/-- The lines of the tests for the interface before those of the endpoints. -/
def apiTestsHead (w : WorkflowSpec) : List String :=
  [docString ("API tests for " ++ docText w.name ++ "."), "",
    "from fastapi.testclient import TestClient", "", "from main import app", "",
    "client = TestClient(app)", "", "", "def test_health():",
    "    response = client.get(\"/health\")", "    assert response.status_code == 200"]

theorem oneLine_routerHead : ∀ l ∈ w.routerHead, OneLine l := by
  simp only [routerHead, docString, List.forall_mem_cons, List.not_mem_nil, false_imp_iff,
    implies_true, oneLine_append, oneLine_docText, oneLine_flowClass, and_true, and_assoc]
  repeat refine ⟨oneLine_ofList (by decide), ?_⟩
  exact oneLine_ofList (by decide)

theorem oneLine_apiTestsHead : ∀ l ∈ w.apiTestsHead, OneLine l := by
  simp only [apiTestsHead, docString, List.forall_mem_cons, List.not_mem_nil, false_imp_iff,
    implies_true, oneLine_append, oneLine_docText, and_true, and_assoc]
  repeat refine ⟨oneLine_ofList (by decide), ?_⟩
  exact oneLine_ofList (by decide)

/-- **The file of routes has one function for each endpoint.** -/
theorem Valid.signatures_routerFile (h : w.Valid) : signatures w.routerFile =
    w.servedEndpoints.map fun e => ⟨e.handler, e.handlerParameters⟩ := by
  have hfile : w.routerFile = unlines (w.routerHead ++
      w.servedEndpoints.flatMap fun e => ["", ""] ++ w.handlerLines e) := rfl
  have hnone : ∀ l ∈ w.routerHead, ∀ c ∈ l.toList.head?, c ≠ 'd' ∧ c ≠ 'a' := by
    simp [routerHead, docString]
  rw [hfile, signatures_parts oneLine_routerHead fun e he =>
      ⟨oneLine_handlerLines (valid_servedEndpoints h e he) w,
        signaturesOf_handlerLines (valid_servedEndpoints h e he) w⟩,
    signaturesOf_eq_nil hnone, List.nil_append, List.map_eq_flatMap]

/-- **The tests for the interface are one for its health and one for each endpoint.** -/
theorem Valid.signatures_apiTestsFile (h : w.Valid) : signatures w.apiTestsFile =
    ⟨"test_health", ""⟩ :: w.servedEndpoints.map fun e => ⟨"test_" ++ e.handler, ""⟩ := by
  have hfile : w.apiTestsFile = unlines (w.apiTestsHead ++
      w.servedEndpoints.flatMap fun e => ["", ""] ++ e.testLines) := rfl
  have hdoc : ∀ l ∈ [docString ("API tests for " ++ docText w.name ++ ".")],
      ∀ c ∈ l.toList.head?, c ≠ 'd' ∧ c ≠ 'a' := by simp [docString]
  have hhealth : signaturesOf w.apiTestsHead = [⟨"test_health", ""⟩] := by
    refine (signaturesOf_append [_] _).trans ?_
    rw [signaturesOf_eq_nil hdoc]
    decide
  rw [hfile, signatures_parts oneLine_apiTestsHead fun e he =>
      ⟨(valid_servedEndpoints h e he).oneLine_testLines,
        (valid_servedEndpoints h e he).signaturesOf_testLines⟩,
    hhealth, List.map_eq_flatMap, List.singleton_append]

/-! ### Distinct handlers -/

theorem Valid.nodup_handlers_iff (h : w.Valid) : (w.servedEndpoints.map (·.handler)).Nodup ↔
    w.servedEndpoints.Pairwise fun e f => ¬ e.SharesHandler f := by
  rw [List.Nodup, List.pairwise_map]
  refine List.Pairwise.iff_of_mem fun he hf => not_congr ?_
  exact EndpointSpec.handler_eq_iff (valid_servedEndpoints h _ he) (valid_servedEndpoints h _ hf)

/-- **Endpoints with plain paths have distinct handlers.** -/
theorem Valid.nodup_handlers (h : w.Valid) (hplain : ∀ e ∈ w.endpoints, IsPlainPath e.path) :
    (w.servedEndpoints.map (·.handler)).Nodup := by
  rw [h.nodup_handlers_iff, servedEndpoints]
  split
  · exact List.pairwise_singleton _ _
  · have hroutes := h.nodup_routes
    rw [List.Nodup, List.pairwise_map] at hroutes
    refine hroutes.imp_of_mem fun he hf hne hshares => hne ?_
    exact hshares.route_eq (h.endpoints _ he) (h.endpoints _ hf) (hplain _ he) (hplain _ hf)

/-- The name of a handler has an underscore, so that no test of an endpoint is that of the
health. -/
theorem test_handler_ne (e : EndpointSpec) : "test_" ++ e.handler ≠ "test_health" := by
  have hmem : '_' ∈ e.handler.toList := by simp [EndpointSpec.handler]
  have hsplit : "test_health" = "test_" ++ "health" := rfl
  intro h
  rw [hsplit, String.append_right_inj] at h
  rw [h] at hmem
  exact absurd hmem (by decide)

/-- **The handlers in the file of routes are distinct exactly if no two endpoints have the same
method and the same words in their paths, and so are the tests for the interface.** -/
theorem handlers_distinct_iff (h : w.validate = .ok ()) :
    (((signatures w.routerFile).map (·.name)).Nodup ↔
      w.servedEndpoints.Pairwise fun e f => ¬ e.SharesHandler f) ∧
      (((signatures w.apiTestsFile).map (·.name)).Nodup ↔
        w.servedEndpoints.Pairwise fun e f => ¬ e.SharesHandler f) := by
  have hvalid := validate_eq_ok_iff.mp h
  have htests : (w.servedEndpoints.map fun e => "test_" ++ e.handler).Nodup ↔
      (w.servedEndpoints.map (·.handler)).Nodup := by
    unfold List.Nodup
    rw [List.pairwise_map, List.pairwise_map]
    exact List.Pairwise.iff fun e f => not_congr (String.append_right_inj "test_")
  constructor
  · rw [hvalid.signatures_routerFile, List.map_map]
    exact hvalid.nodup_handlers_iff
  · have hhealth : "test_health" ∉ w.servedEndpoints.map fun e => "test_" ++ e.handler := by
      intro hmem
      obtain ⟨e, -, he⟩ := List.mem_map.mp hmem
      exact test_handler_ne e he
    rw [hvalid.signatures_apiTestsFile, List.map_cons, List.map_map, List.nodup_cons]
    refine (and_iff_right hhealth).trans ?_
    exact htests.trans hvalid.nodup_handlers_iff

/-- Two endpoints whose paths have the same words. -/
def mirrored : WorkflowSpec :=
  { reviewLoop with
    fastApi := true
    endpoints := [⟨"POST", "/a-b", ""⟩, ⟨"POST", "/a/b", ""⟩] }

theorem handlers_mirrored :
    mirrored.validate = .ok () ∧ mirrored.fastApi = true ∧
      ¬ ((signatures mirrored.routerFile).map (·.name)).Nodup ∧
        ¬ ((signatures mirrored.apiTestsFile).map (·.name)).Nodup := by
  have hvalid : mirrored.validate = .ok () := rfl
  have hsame : ¬ mirrored.servedEndpoints.Pairwise fun e f => ¬ e.SharesHandler f := by decide
  obtain ⟨hhandlers, htests⟩ := handlers_distinct_iff hvalid
  exact ⟨hvalid, rfl, mt hhandlers.mp hsame, mt htests.mp hsame⟩

end WorkflowSpec

end AgentFlow
