import AgentFlow.Output.Nodes
import AgentFlow.Proofs.Output.CodeLines

/-!
# Generated nodes pass a check

The class of a node has a method that reads from the shared values, one that computes and one that
stores.  Only what these may do is in them.

* `laid_nodeClass`: the lines of the class of a node are one statement that passes a check.
* `tolerated_nodesFile`: **the file of the nodes passes a check.**
-/

namespace AgentFlow.Code

open Text Lint Phrase Output

variable {P Q : Tree → Prop} {k m : Nat} {s t : String} {ts : List String} {args body : List String}

theorem dropRepeats_eq_nil_iff {xs : List String} : dropRepeats xs = [] ↔ xs = [] := by
  induction xs with
  | nil => exact .rfl
  | cons s rest ih =>
    cases rest with
    | nil => simp [dropRepeats]
    | cons t more =>
      rw [dropRepeats]
      split
      · simpa using ih
      · simp

theorem distinctSorted_eq_nil_iff {xs : List String} : distinctSorted xs = [] ↔ xs = [] := by
  rw [distinctSorted, dropRepeats_eq_nil_iff, ← List.length_eq_zero_iff, List.length_mergeSort,
    List.length_eq_zero_iff]

/-! ### Methods -/

theorem isName_kind (k : NodeKind) : IsName k.name := by
  cases k <;> simp [NodeKind.name]

def methodLine (async : Bool) (s : String) (args : List String) : String :=
  (if async then "    async def " else "    def ") ++ s ++ "(" ++ commas args ++ "):"

/-- A method of a class. -/
theorem Laid.method (k : Nat) (async : Bool) (hs : IsName s) (hargs : ∀ a ∈ args, IsName a)
    (hP : ∀ rs, (∀ r ∈ rs, Q r.phrase.tree) → P (functionTree s (args.map name) none rs))
    (hne : body ≠ []) (hbody : Laid Q 8 body) (ht : Laid P 4 ts) :
    Laid P 4 (List.replicate k "" ++ methodLine async s args :: (body ++ ts)) := by
  have hsignature := isSignature_names hs hargs
  have hflat : ∀ p ∈ args.map name, p.Flat := List.forall_mem_map.mpr fun a _ => flat_name a
  cases async with
  | false =>
    refine .function k hsignature ⟨hflat, by simp⟩ hP ?_ hne hbody ht
    rw [chars_function, intercalate_chars]
    simp [methodLine]
  | true =>
    refine .asyncFunction k hsignature ⟨hflat, by simp⟩ hP ?_ hne hbody ht
    rw [chars_asyncFunction, intercalate_chars]
    simp [methodLine]

/-! ### Statements of methods -/

/-- What a node returns before it computes. -/
def prepared (batch : Bool) (t : String) : Phrase :=
  if batch then (stored t).orElse (list []) else stored t

theorem isExpression_prepared (batch : Bool) (h : IsText t.toList) :
    (prepared batch t).IsExpression := by
  cases batch with
  | false => exact (isPrimary_stored h).isExpression
  | true =>
    exact (isPrimary_stored h).isOperand.isItem.orElse
      (isPrimary_collection (by simp) (by simp)).isOperand.isItem

theorem quiet_prepared (batch : Bool) :
    Everywhere IsQuiet (worded "return" (prepared batch t)).tree := by
  cases batch with
  | false =>
    exact (by decide +kernel : Everywhere IsQuiet (worded "return" (prepared false "")).tree)
  | true =>
    exact (by decide +kernel : Everywhere IsQuiet (worded "return" (prepared true "")).tree)

@[simp] theorem flat_prepared (batch : Bool) : (prepared batch t).Flat := by
  cases batch <;> simp [prepared, stored]

@[simp] theorem chars_prepared (batch : Bool) : (prepared batch t).chars =
    "shared.get(".toList ++ t.toList ++ (if batch then ") or []" else ")").toList := by
  cases batch <;> simp [prepared, stored]

def stores (t : String) : Phrase :=
  ((name "shared").item (literal t)).assign (name "exec_res")

theorem isLine_stores (h : IsText t.toList) : IsLine (stores t) := by
  have hplace := (isPrimary_name (s := "shared") (by simp)).item (isExpression_text h)
  exact hplace.isExpression.set (isPrimary_name (by simp)).isExpression rfl rfl

theorem quiet_stores : Everywhere IsQuiet (stores t).tree :=
  (by decide +kernel : Everywhere IsQuiet (stores "").tree)

/-! ### Classes -/

/-- The method that computes. -/
theorem laid_exec (k : Nat) (async : Bool) (hs : IsName s) (hargs : ∀ a ∈ args, IsName a)
    (h : IsText t.toList) (ht : Laid MethodFits 4 ts) :
    Laid MethodFits 4 (List.replicate k "" ++ methodLine async s args ::
      ("        raise NotImplementedError(" ++ t ++ ")") :: ts) := by
  let rs : List Line := [⟨.breaks 0 8, notImplemented t, false⟩]
  have hsignature := isSignature_names hs hargs
  have hflat : ∀ p ∈ args.map name, p.Flat := List.forall_mem_map.mpr fun a _ => flat_name a
  have hrow : (notImplemented t).IsStatement 8 false :=
    (isLine_notImplemented h).isStatement flat_notImplemented
  have hbody : IsBody 4 rs :=
    isBody_open (List.cons_ne_nil _ _) (List.forall_mem_singleton.mpr (isOpenRow hrow))
  have hpure : Everywhere IsPure (notImplemented t).tree :=
    (by decide +kernel : Everywhere IsPure (notImplemented "").tree)
  have hfits : MethodFits (functionTree s (args.map name) none rs) :=
    methodFits_exec (List.forall_mem_singleton.mpr hpure)
      (show 0 < ({} : DetectionSettings).maxExecLines by decide)
  cases async with
  | false =>
    refine .cons k ["        raise NotImplementedError(" ++ t ++ ")"]
      (p := function s (args.map name) none rs)
      (hsignature.function hbody hflat (by simp)).isStatement hfits ?_ ht
    rw [chars_function, intercalate_chars]
    simp [methodLine, rs, Lead.chars]
  | true =>
    refine .cons k ["        raise NotImplementedError(" ++ t ++ ")"]
      (p := asyncFunction s (args.map name) none rs)
      (hsignature.asyncFunction hbody hflat (by simp)).isStatement hfits ?_ ht
    rw [chars_asyncFunction, intercalate_chars]
    simp [methodLine, rs, Lead.chars]

variable {n : NodeSpec} {w : WorkflowSpec}

def methodName (async : Bool) (s : String) : String := s ++ if async then "_async" else ""

/-- The lines of the class of a node, method by method. -/
theorem lines_nodePlan (p : NodePlan) (async batch : Bool) (ha : p.node.kind.isAsync = async)
    (hb : p.node.kind.isBatch = batch) : p.lines =
      ("class " ++ p.node.name ++ "(" ++ p.node.kind.name ++ "):") ::
        ("    " ++ docString (docText p.node.summary)) :: "" ::
        methodLine async (methodName async "prep") ["self", "shared"] ::
        ("        return shared.get(" ++ quoted p.inputKey ++
          if batch then ") or []" else ")") :: "" ::
        methodLine async (methodName async "exec") ["self", if batch then "item" else "prep_res"] ::
        ("        raise NotImplementedError(" ++
          quoted (p.node.name ++ "." ++ methodName async "exec") ++ ")") :: "" ::
        methodLine async (methodName async "post") ["self", "shared", "prep_res", "exec_res"] ::
        ((p.outputKeys.map fun k => "        shared[" ++ quoted k ++ "] = exec_res") ++
          ["        return \"default\""]) := by
  rw [NodePlan.lines]
  simp only [ha, hb]
  cases async <;> cases batch <;> simp [methodLine, methodName, commas, String.append_assoc]

theorem laid_nodeClass {p : NodePlan} (h : IsName p.node.name) (hnull : NullFree p.node.summary) :
    Laid (StatementFits {}) 0 (["", ""] ++ p.lines) := by
  rw [lines_nodePlan p _ _ rfl rfl]
  generalize p.node.kind.isAsync = async
  generalize p.node.kind.isBatch = batch
  have hnames : ∀ a, ∀ s ∈ ["prep", "exec", "post"], methodName a s ∈ fixedNames := by
    simp [methodName, fixedNames]
  have hname : ∀ s ∈ ["prep", "exec", "post"], IsName (methodName async s) := fun s hs =>
    isName_fixed (hnames async s hs)
  have haround : ∀ a, methodName a "prep" ∉ execNames ∧ methodName a "post" ∉ execNames := by decide
  have hdoc : IsText (docString (docText p.node.summary)).toList :=
    isText_docString (inside_docText hnull)
  have hprep : Laid (Everywhere IsQuiet) 8
      ["        return shared.get(" ++ quoted p.inputKey ++ if batch then ") or []" else ")"] :=
    .simple 0 (isLine_return (isExpression_prepared batch (isText_quoted p.inputKey)))
      (quiet_prepared batch) (by simp) laid_nil
  have hpost : Laid (Everywhere IsQuiet) 8
      ((p.outputKeys.map fun k => "        shared[" ++ quoted k ++ "] = exec_res") ++
        ["        return \"default\""]) := by
    refine .append (.map fun k _ => ?_) ?_
    · exact .simple 0 (isLine_stores (isText_quoted k)) quiet_stores (by simp [stores]) laid_nil
    · have htext : IsText "\"default\"".toList := isText_plain "default" (isPlainText_ofList rfl)
      exact .simple 0 (isLine_return (isExpression_text htext)) (by decide +kernel) (by simp)
        laid_nil
  refine .last 2 (.classOf 2 h (b := some p.node.kind.name) (by simp [isName_kind])
    (fun rs hrs => statementFits_classOf hrs) (by simp) (by simp) ?_ laid_nil)
  exact .text 0 hdoc (methodFits_plain (show NodeType.group ∉ definitionTypes by decide))
    (by simp) <|
    .method 1 async (hname "prep" (by simp)) (by simp)
      (fun rs hrs => methodFits_around hrs (haround async).1) (by simp) hprep <|
    laid_exec 1 async (hname "exec" (by simp)) (by cases batch <;> simp) (isText_quoted _) <|
    .last 1 <| .method 1 async (hname "post" (by simp)) (by simp)
      (fun rs hrs => methodFits_around hrs (haround async).2) (by simp) hpost laid_nil

/-- The classes that the nodes extend are imported. -/
theorem exists_nodeClasses (h : w.nodes ≠ []) : ∃ t ts, w.nodeClasses = t :: ts ∧
    ∀ s ∈ t :: ts, IsName s := by
  have hne : w.nodeClasses ≠ [] := by
    rw [WorkflowSpec.nodeClasses, Ne, distinctSorted_eq_nil_iff, List.map_eq_nil_iff]
    exact h
  obtain ⟨t, ts, hts⟩ := List.exists_cons_of_ne_nil hne
  refine ⟨t, ts, hts, fun s hs => ?_⟩
  rw [← hts] at hs
  obtain ⟨n, -, rfl⟩ := List.mem_map.mp (mem_of_mem_distinctSorted hs)
  exact isName_kind n.kind

/-- **The file of the nodes passes a check.** -/
theorem tolerated_nodesFile (h : w.Valid) (hnull : w.NullFree) (path : String) :
    ∀ v ∈ detect path {} w.nodesFile, v.Tolerated := by
  obtain ⟨t, ts, hts, hnames⟩ := exists_nodeClasses h.nodes_ne_nil
  have hclasses : Laid (StatementFits {}) 0 (w.plans.flatMap fun p => ["", ""] ++ p.lines) := by
    refine .flatMap fun p hp => ?_
    have hnode : p.node ∈ w.plans.map (·.node) := List.mem_map_of_mem hp
    rw [WorkflowSpec.plans, map_node_plansFrom] at hnode
    exact laid_nodeClass (isName_of_isClassName (h.nodeNames _ hnode).isClassName)
      (hnull.nodes _ hnode)
  rw [WorkflowSpec.nodesFile, hts]
  exact tolerated_of_open
    (isText_docAround _ _ hnull.name (isPlainText_ofList rfl) (isPlainText_ofList rfl))
    (.imports 1 "pocketflow" [] t ts (by simp) hnames statementFits_plain (by simp [commas])
      hclasses) path

end AgentFlow.Code
