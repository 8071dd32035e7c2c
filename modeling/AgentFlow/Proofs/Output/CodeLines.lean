import AgentFlow.Proofs.Code.Calm
import AgentFlow.Proofs.Output.CodeNames

/-!
# Lines of generated code

The kinds of expressions and statements that generated code is made of.

* `isName_fixed`, `isText_plain`, `isText_docAround`: names and texts that are the same in every
  generated file.
* `Phrase.method`, `Phrase.item`, `equals`: calls of methods, items and comparisons.
* `Laid.note`, `Laid.imports`, `Laid.main`: statements of several files.
-/

namespace AgentFlow.Code

open Text Lint Phrase Output

variable {P : Tree → Prop} {p q : Phrase} {ps : List Phrase} {s t : String}

/-! ### Names and texts -/

/-- The names that generated code brings along. -/
@[simp, reducible] def fixedNames : List String :=
  ["typing", "Any", "NotImplementedError", "__name__", "print", "pocketflow", "self", "shared",
    "prep", "prep_async", "exec", "exec_async", "post", "post_async", "item", "prep_res",
    "exec_res", "get", "Node", "AsyncNode", "BatchNode", "AsyncBatchNode", "Flow", "AsyncFlow",
    "nodes", "edges", "__init__", "build", "source", "routes", "action", "target", "items", "start",
    "error_handler", "error", "str", "run", "run_async", "Exception", "pydantic", "BaseModel",
    "Field", "Optional", "SharedStore", "WorkflowRequest", "WorkflowResponse", "input", "output",
    "description", "request", "fastapi", "APIRouter", "HTTPException", "flow", "schemas", "models",
    "router", "response_model", "dict", "exc", "status_code", "detail", "FastAPI", "app", "title",
    "include_router", "health", "uvicorn", "host", "port", "asyncio", "node", "pytest", "raises",
    "list", "set", "all", "values", "ValueError", "testclient", "TestClient", "main", "client",
    "response", "json", "test_health",
    "test_flow_registers_every_node", "test_every_step_routes_errors",
    "test_error_handler_records_failure"]

theorem names_fixed : ∀ s ∈ fixedNames, IsName s := by decide +kernel

@[simp] theorem isName_fixed (hs : s ∈ fixedNames) : IsName s := names_fixed s hs

theorem isText_plain (s : String) (h : isPlainText s = true) :
    IsText ("\"" ++ s ++ "\"").toList :=
  ⟨false, s.toList, inside_of_isPlainText h, by simp [closing]⟩

/-- A documentation string around a free text. -/
theorem isText_docAround (s t : String) {u : String} (hu : NullFree u)
    (hs : isPlainText s = true) (ht : isPlainText t = true) :
    IsText (docString (s ++ docText u ++ t)).toList := by
  refine isText_docString ?_
  rw [String.toList_append, String.toList_append]
  exact ((inside_of_isPlainText hs).append (inside_docText hu)).append (inside_of_isPlainText ht)

/-! ### Expressions -/

theorem isExpression_text (h : IsText s.toList) : (literal s).IsExpression :=
  (isOperand_literal h).isExpression

theorem isExpression_plain (s : String) (h : isPlainText s = true) :
    (literal ("\"" ++ s ++ "\"")).IsExpression :=
  isExpression_text (isText_plain s h)

theorem isExpression_name (hs : IsName s) : (name s).IsExpression :=
  (isPrimary_name hs).isExpression

/-- A call of a name. -/
theorem isPrimary_call (hs : IsName s) (h : ∀ p ∈ ps, p.IsArgument) :
    ((name s).call ps).IsPrimary :=
  (isPrimary_name hs).call h

/-- A function is called on one value. -/
theorem isPrimary_onOne {p : Phrase} (hs : IsName s) (hp : p.IsExpression) :
    ((name s).call [p]).IsPrimary :=
  isPrimary_call hs (List.forall_mem_singleton.mpr hp.isArgument)

def Phrase.method (p : Phrase) (s : String) (ps : List Phrase) : Phrase := (p.attr s).call ps

theorem Phrase.IsPrimary.method (h : p.IsPrimary) (hs : IsName s) (hps : ∀ q ∈ ps, q.IsArgument) :
    (p.method s ps).IsPrimary :=
  (h.attr hs 0 0).call hps

@[simp] theorem flat_method : (p.method s ps).Flat ↔ p.Flat ∧ ∀ q ∈ ps, q.Flat := by
  simp [Phrase.method]

@[simp] theorem chars_method : (p.method s ps).chars =
    p.chars ++ '.' :: s.toList ++ '(' :: [',', ' '].intercalate (ps.map (·.chars)) ++ [')'] := by
  simp [Phrase.method]

@[simp] theorem calm_method (hs : mutatingMethods.contains s = false) :
    (p.method s ps).Calm ↔ p.Calm ∧ ∀ q ∈ ps, q.Calm := by
  rw [Phrase.method, calm_call (by simpa using hs), calm_attr]

/-- A method is called on one value. -/
theorem isPrimary_methodOf (hp : IsName s) (hs : IsName t) (hq : q.IsExpression) :
    ((name s).method t [q]).IsPrimary :=
  (isPrimary_name hp).method hs (List.forall_mem_singleton.mpr hq.isArgument)

def stored (t : String) : Phrase := (name "shared").method "get" [literal t]

theorem isPrimary_stored (h : IsText t.toList) : (stored t).IsPrimary :=
  isPrimary_methodOf (by simp) (by simp) (isExpression_text h)

theorem isExpression_none : (constant "None").IsExpression :=
  (isOperand_constant (by decide)).isExpression

def Phrase.item (p q : Phrase) : Phrase := p.index (inLine [q])

theorem Phrase.IsPrimary.item (hp : p.IsPrimary) (hq : q.IsExpression) : (p.item q).IsPrimary :=
  hp.index (List.forall_mem_singleton.mpr ⟨hq, rfl⟩) 0 0

@[simp] theorem flat_item : (p.item q).Flat ↔ p.Flat ∧ q.Flat := by
  simp [Phrase.item]

@[simp] theorem chars_item : (p.item q).chars = p.chars ++ '[' :: q.chars ++ [']'] := by
  simp [Phrase.item]

@[simp] theorem calm_item : (p.item q).Calm ↔ p.Calm ∧ q.Calm := by
  simp [Phrase.item, inLine]

theorem ne_dots_of_isText (h : IsText s.toList) : (s == "...") = false := by
  obtain ⟨triple, inner, -, hchars⟩ := h
  refine beq_false_of_ne fun he => ?_
  rw [he] at hchars
  cases triple <;> cases hchars

/-- A named argument. -/
theorem Phrase.IsExpression.keyword (h : p.IsExpression) (hs : IsName s)
    (hdots : (p.body == "...") = false) : (Phrase.named s p).IsArgument :=
  h.named hs (by simpa using hdots)

theorem isArgument_text (hs : IsName s) (ht : IsText t.toList) :
    (Phrase.named s (literal t)).IsArgument :=
  (isExpression_text ht).keyword hs (ne_dots_of_isText ht)

def equals (p q : Phrase) : Phrase := p.chain [⟨1, "==", .blanks 1, q⟩]

theorem isItem_equals (hp : p.IsOperand) (hq : q.IsOperand) (hdots : q.body ≠ "...") :
    (equals p q).IsItem := by
  refine hp.chain fun x hx => ?_
  obtain rfl := List.mem_singleton.mp hx
  exact ⟨show "==" ∈ operators by decide, hq, rfl, by simp, hdots⟩

@[simp] theorem flat_equals : (equals p q).Flat ↔ p.Flat ∧ q.Flat := by
  simp [equals, Lead.newline]

@[simp] theorem chars_equals : (equals p q).chars = p.chars ++ " == ".toList ++ q.chars := by
  simp [equals, Lead.chars]

@[simp] theorem calm_equals : (equals p q).Calm ↔ p.Calm ∧ q.Calm := by
  simp [equals]

/-- Phrases for each of some texts. -/
theorem exists_phrases {α : Type} {R : Phrase → Prop} {f : α → String} {as : List α}
    (h : ∀ a ∈ as, ∃ p, R p ∧ p.chars = (f a).toList) :
    ∃ ps : List Phrase, (∀ p ∈ ps, R p) ∧
      [',', ' '].intercalate (ps.map (·.chars)) = (commas (as.map f)).toList := by
  have hall : ∃ ps : List Phrase, (∀ p ∈ ps, R p) ∧
      ps.map (·.chars) = as.map fun a => (f a).toList := by
    induction as with
    | nil => exact ⟨[], by simp, rfl⟩
    | cons a as ih =>
      rw [List.forall_mem_cons] at h
      obtain ⟨⟨p, hp, hchars⟩, has⟩ := h
      obtain ⟨ps, hps, hps'⟩ := ih has
      exact ⟨p :: ps, List.forall_mem_cons.mpr ⟨hp, hps⟩, by simp [hchars, hps']⟩
  obtain ⟨ps, hps, hps'⟩ := hall
  refine ⟨ps, hps, ?_⟩
  rw [hps', commas, String.toList_intercalate, List.map_map]
  rfl

theorem isSignature_names {args : List String} (hs : IsName s) (hargs : ∀ a ∈ args, IsName a) :
    IsSignature s (args.map name) none :=
  ⟨hs, List.forall_mem_map.mpr fun a ha => isParameter_name (hargs a ha), by simp⟩

theorem intercalate_chars (args : List String) :
    [',', ' '].intercalate ((args.map name).map (·.chars)) = (commas args).toList := by
  simp [commas, String.toList_intercalate, Function.comp_def]

/-! ### Statements -/

def Phrase.startsPlainly (p : Phrase) : Bool :=
  let w := (p.head (.blanks 0)).word
  !blockWords.contains w && w != "type" && w != "match"

theorem Phrase.startsPlainly_iff : p.startsPlainly = true ↔
    (p.head (.blanks 0)).word ∉ blockWords ∧ (p.head (.blanks 0)).word ≠ "type" ∧
      ((p.head (.blanks 0)).word == "match") = false := by
  simp [Phrase.startsPlainly, and_assoc]

/-- An expression is a statement unless its first word starts another one. -/
theorem Phrase.IsExpression.alone (h : p.IsExpression) (hstart : p.startsPlainly = true) :
    IsLine p := by
  obtain ⟨hblock, htype, hmatch⟩ := Phrase.startsPlainly_iff.mp hstart
  exact ⟨h.isSimple hblock fun hw => absurd hw htype, hmatch⟩

/-- An assignment. -/
theorem Phrase.IsExpression.set (h : p.IsExpression) (hq : q.IsExpression)
    (htarget : isTarget p.tree = true) (hstart : p.startsPlainly = true) :
    IsLine (p.assign q) := by
  obtain ⟨hblock, htype, hmatch⟩ := Phrase.startsPlainly_iff.mp hstart
  exact ⟨h.assign htarget hblock htype hq, hmatch⟩

theorem isLine_return (h : p.IsExpression) : IsLine (worded "return" p) :=
  ⟨h.worded (by decide), rfl⟩

theorem isLine_assert (h : p.IsExpression) : IsLine (worded "assert" p) :=
  ⟨h.worded (by decide), rfl⟩

/-- A fixed documentation string. -/
theorem Laid.note (k : Nat) (u : String) {m : Nat} {ls : List String}
    (hp : P (literal (docString u)).tree) (hplain : isPlainText u = true)
    (hchars : List.replicate m ' ' ++ (docString u).toList = s.toList) (hls : Laid P m ls) :
    Laid P m (List.replicate k "" ++ s :: ls) :=
  .text k (isText_docString (inside_of_isPlainText hplain)) hp hchars hls

/-- Names that are imported. -/
theorem Laid.imports (k : Nat) (s : String) (ss : List String) (t : String) (ts : List String)
    {m : Nat} {l : String} {ls : List String}
    (hs : ∀ n ∈ s :: ss, IsName n) (ht : ∀ n ∈ t :: ts, IsName n)
    (hP : ∀ {t}, t.type ∉ definitionTypes → P t)
    (hchars : List.replicate m ' ' ++ (fromImport s ss t ts).chars = l.toList)
    (hls : Laid P m ls) : Laid P m (List.replicate k "" ++ l :: ls) :=
  .simple k ⟨isSimple_fromImport hs ht, rfl⟩
    (hP (show NodeType.group ∉ definitionTypes by decide)) ⟨by simp, hchars⟩ hls

def notImplemented (t : String) : Phrase :=
  worded "raise" ((name "NotImplementedError").call [literal t])

theorem isLine_notImplemented (h : IsText t.toList) : IsLine (notImplemented t) := by
  refine ⟨IsExpression.worded (isPrimary_call (by simp) ?_).isExpression (by decide), rfl⟩
  exact List.forall_mem_singleton.mpr (isExpression_text h).isArgument

@[simp] theorem flat_notImplemented : (notImplemented t).Flat := by simp [notImplemented]

@[simp] theorem chars_notImplemented : (notImplemented t).chars =
    "raise NotImplementedError(".toList ++ t.toList ++ [')'] := by
  simp [notImplemented]

/-- What is run if the file is the main one. -/
theorem Laid.main (k : Nat) {m : Nat} {body : List String}
    (hP : ∀ {t}, t.type ∉ definitionTypes → P t)
    (hheader : List.replicate m ' ' ++ "if __name__ == \"__main__\":".toList = s.toList)
    (hne : body ≠ []) (h : Laid (fun _ => True) (m + 4) body) :
    Laid P m (List.replicate k "" ++ s :: body) := by
  have htest : (equals (name "__name__") (literal "\"__main__\"")).IsExpression :=
    (isItem_equals (isPrimary_name (by simp)).isOperand
      (isOperand_literal (isText_plain "__main__" (isPlainText_ofList rfl)))
      (by decide)).isExpression
  have hif := Laid.block (P := P) k
    (ifStatement (equals (name "__name__") (literal "\"__main__\"")))
    (fun rs hrs => htest.ifStatement (by simp) hrs) (by simp)
    (fun rs _ => hP (by simp [ifStatement, headed, Tree.type, definitionTypes]))
    (by simpa using hheader) hne h laid_nil
  rwa [List.append_nil] at hif

end AgentFlow.Code
