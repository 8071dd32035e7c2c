import AgentFlow.Output.Flow
import AgentFlow.Proofs.Output.CodeLines

/-!
# Generated flows pass a check

The class of a flow holds its nodes and routes in two tables, connects them and runs the flow.  It
is no class of a node, and so it only has to be read.

* `laid_table`: a table with one entry on each line is a statement.
* `tolerated_flowFile`: **the file of the flow passes a check.**
-/

namespace AgentFlow.Code

open Text Lint Phrase Output

variable {s t : String} {ts : List String} {body : List String} {w : WorkflowSpec}

/-! ### Tables -/

theorem fits_listed {m : Nat} {rs : List Row} (h : ∀ r ∈ rs, r.lead.Fits m ∧ r.phrase.Flat) :
    ∀ x ∈ listed rs, x.lead.Fits m := by
  have hrow : ∀ r ∈ rs, ∀ x ∈ r.phrase.lexemes r.lead, x.lead.Fits m := by
    intro r hr x hx
    rcases List.mem_cons.mp hx with rfl | hx
    · exact (h r hr).1
    · exact (h r hr).2.fits m x hx
  intro x hx
  cases rs with
  | nil => exact absurd hx List.not_mem_nil
  | cons r rs =>
    rw [listed, List.mem_append] at hx
    rcases hx with hx | hx
    · exact hrow r List.mem_cons_self x hx
    · obtain ⟨q, hq, hx⟩ := List.mem_flatMap.mp hx
      rcases List.mem_cons.mp hx with rfl | hx
      · exact fun hn => Bool.noConfusion hn
      · exact hrow q (List.mem_cons_of_mem r hq) x hx

theorem fits_assign {m : Nat} {p v : Phrase} (hp : p.Flat) (hv : ∀ x ∈ v.tail, x.lead.Fits m) :
    ∀ x ∈ (p.assign v).tail, x.lead.Fits m := by
  have hflat {x : Lexeme} (h : x.lead.newline = false) : x.lead.Fits m := fun hn =>
    Bool.noConfusion (h.symm.trans hn)
  refine List.forall_mem_append.mpr ⟨hp.fits m, List.forall_mem_cons.mpr ⟨hflat rfl, ?_⟩⟩
  exact List.forall_mem_cons.mpr ⟨hflat rfl, hv⟩

/-- A table that is an attribute of `self`, one line for each entry. -/
theorem laid_table {α : Type} (field : String) {xs : List α} {key value : α → Phrase}
    {line : α → String} (hname : IsName field) (hne : xs ≠ [])
    (hkey : ∀ x ∈ xs, (key x).IsExpression ∧ (key x).Flat)
    (hvalue : ∀ x ∈ xs, (value x).IsExpression ∧ (value x).Flat)
    (hline : ∀ x ∈ xs, List.replicate 12 ' ' ++ (Phrase.pair (key x) (value x)).chars ++ [','] =
      (line x).toList) (ht : Laid (fun _ => True) 8 ts) :
    Laid (fun _ => True) 8
      (("        self." ++ field ++ " = \x7b") :: (xs.map line ++ ["        \x7d"] ++ ts)) := by
  obtain ⟨x, xs, rfl⟩ := List.exists_cons_of_ne_nil hne
  let entry (x : α) : Phrase × Phrase := (key x, value x)
  have hentry : ∀ e ∈ entry x :: xs.map entry, (e.1.IsExpression ∧ e.1.Flat) ∧
      e.2.IsExpression ∧ e.2.Flat := by
    rw [← List.map_cons, List.forall_mem_map]
    exact fun y hy => ⟨hkey y hy, hvalue y hy⟩
  have hdict : (dict (.rows 8) (entry x) (xs.map entry)).IsOperand :=
    isOperand_dict (fun e he => ⟨(hentry e he).1.1, (hentry e he).2.1⟩) ⟨rfl, rfl, rfl⟩
  have htarget := (isPrimary_name (s := "self") (by simp)).attr hname 0 0
  have hset := htarget.isExpression.set hdict.isExpression rfl rfl
  refine .cons 0 _
    (p := ((name "self").attr field).assign (dict (.rows 8) (entry x) (xs.map entry)))
    (hset.toIsSimple.isStatement ?_ ?_) trivial ?_ ht
  · simp [assign, attr, Phrase.grow, head, name, Lexeme.word]
  · refine fits_assign (by simp)
      (List.forall_mem_append.mpr ⟨List.forall_mem_append.mpr ⟨?_, ?_⟩, ?_⟩)
    · refine fits_listed (List.forall_mem_cons.mpr ⟨?_, List.forall_mem_map.mpr fun e he => ?_⟩)
      · have := hentry _ List.mem_cons_self
        exact ⟨fun _ => show 8 ≤ 12 by omega, flat_pair.mpr ⟨this.1.2, this.2.2⟩⟩
      · have := hentry e (List.mem_cons_of_mem _ he)
        exact ⟨fun _ => show 8 ≤ 12 by omega, flat_pair.mpr ⟨this.1.2, this.2.2⟩⟩
    · exact List.forall_mem_singleton.mpr fun hn => Bool.noConfusion hn
    · exact List.forall_mem_singleton.mpr fun _ => le_rfl
  · have hrows : ∀ ys : List α, (∀ y ∈ ys, y ∈ x :: xs) →
        ((ys.map entry).flatMap fun e => '\n' :: (List.replicate 12 ' ' ++
          (Phrase.pair e.1 e.2).chars ++ [','])) = lineChars (ys.map line) := by
      intro ys hys
      rw [List.flatMap_map, lineChars, List.flatMap_map]
      exact List.flatMap_congr fun y hy => by rw [hline y (hys y hy)]
    rw [chars_assign, chars_dict_rows, lineChars_append, ← List.map_cons, hrows _ fun _ h => h]
    simp [chars_attr]

def routeEntry (r : String × String) : Phrase × Phrase :=
  (literal (quoted r.1), literal (quoted r.2))

def routePhrase : List (String × String) → Phrase
  | [] => braces
  | r :: rs => dict .line (routeEntry r) (rs.map routeEntry)

theorem isExpression_routePhrase (rs : List (String × String)) :
    (routePhrase rs).IsExpression ∧ (routePhrase rs).Flat := by
  cases rs with
  | nil => exact ⟨isOperand_braces.isExpression, flat_braces⟩
  | cons r rs =>
    have htext : ∀ s : String, (literal (quoted s)).IsExpression := fun s =>
      isExpression_text (isText_quoted s)
    refine ⟨(isOperand_dict ?_ ⟨rfl, rfl, rfl⟩).isExpression, flat_dict_line.mpr ?_⟩
    · rw [← List.map_cons, List.forall_mem_map]
      exact fun x _ => ⟨htext x.1, htext x.2⟩
    · rw [← List.map_cons, List.forall_mem_map]
      exact fun x _ => ⟨flat_literal _, flat_literal _⟩

theorem chars_routePhrase (rs : List (String × String)) : (routePhrase rs).chars =
    '\x7b' :: (commas (rs.map fun r => quoted r.1 ++ ": " ++ quoted r.2)).toList ++ ['\x7d'] := by
  have hentry : ∀ r, (Phrase.pair (routeEntry r).1 (routeEntry r).2).chars =
      (quoted r.1 ++ ": " ++ quoted r.2).toList := fun r => by simp [routeEntry]
  cases rs with
  | nil => rfl
  | cons r rs =>
    rw [routePhrase, chars_dict_line, ← List.map_cons, List.map_map, commas,
      String.toList_intercalate, List.map_map]
    simp only [Function.comp_def, hentry]
    rfl

/-! ### Methods -/

section Methods

/-- A method of a class whose statements are not looked at. -/
theorem laid_method (k : Nat) (args : List String) (hs : IsName s) (hargs : ∀ a ∈ args, IsName a)
    (hheader : "    def ".toList ++
      (s.toList ++ ('(' :: (commas args).toList ++ "):".toList)) = t.toList) (hne : body ≠ [])
    (hbody : Laid (fun _ => True) 8 body) (ht : Laid (fun _ => True) 4 ts) :
    Laid (fun _ => True) 4 (List.replicate k "" ++ t :: (body ++ ts)) := by
  refine .function k (isSignature_names hs hargs)
    ⟨List.forall_mem_map.mpr fun a _ => flat_name a, by simp⟩ (fun _ _ => trivial) ?_ hne hbody ht
  rw [chars_function, intercalate_chars, ← hheader]
  simp

/-- An item of an attribute of `self`. -/
theorem isPrimary_selfItem {f : String} (hf : IsName f) {q : Phrase} (hq : q.IsExpression) :
    (((name "self").attr f).item q).IsPrimary :=
  ((isPrimary_name (by simp)).attr hf 0 0).item hq

/-- The nodes are connected by actions. -/
theorem laid_connect : Laid (fun _ => True) 12
    ["            for action, target in routes.items():",
      "                if target == " ++ quoted errorHandler ++ ":",
      "                    continue",
      "                self.nodes[source] - action >> self.nodes[target]"] := by
  have hcontinue : Laid (fun _ => True) 20 ["                    continue"] :=
    .simple 0 ⟨isSimple_bare (w := "continue") (by decide), rfl⟩ trivial (by simp) laid_nil
  have hnode {x : String} (hx : IsName x) := isPrimary_selfItem (f := "nodes") (by simp)
    (isPrimary_name hx).isExpression
  have hchain : (chain (((name "self").attr "nodes").item (name "source"))
      [⟨1, "-", .blanks 1, name "action"⟩,
        ⟨1, ">>", .blanks 1, ((name "self").attr "nodes").item (name "target")⟩]).IsItem := by
    refine (hnode (by simp)).isOperand.chain fun x hx => ?_
    simp only [List.mem_cons, List.not_mem_nil, or_false] at hx
    rcases hx with rfl | rfl
    · exact ⟨show "-" ∈ operators by decide, (isPrimary_name (by simp)).isOperand, rfl,
        by simp, by decide⟩
    · exact ⟨show ">>" ∈ operators by decide, (hnode (by simp)).isOperand, rfl,
        by simp, by decide⟩
  have htest : (equals (name "target") (literal (quoted errorHandler))).IsExpression :=
    (isItem_equals (isPrimary_name (by simp)).isOperand (isOperand_literal (isText_quoted _))
      (by decide)).isExpression
  have hitems : (((name "routes").attr "items").call []).IsExpression :=
    (((isPrimary_name (by simp)).attr (by simp) 0 0).call (by simp)).isExpression
  have hbody : Laid (fun _ => True) 16
      ["                if target == " ++ quoted errorHandler ++ ":",
        "                    continue",
        "                self.nodes[source] - action >> self.nodes[target]"] :=
    .block 0 (ifStatement _) (fun rs hrs => htest.ifStatement (by simp) hrs) (by simp)
      (fun _ _ => trivial) (by simp) (by simp) hcontinue <|
      .simple 0 (hchain.isExpression.alone rfl) trivial (by simp [Lead.chars, Lead.newline])
        laid_nil
  exact .last 0 (.block 0 (forStatement "action" ["target"] _)
    (fun rs hrs => hitems.forStatement (by simp) (by simp) (by simp) hrs) (by simp)
    (fun _ _ => trivial) (by decide) (by simp) hbody laid_nil)

theorem laid_build (h : IsName w.flowBase) : Laid (fun _ => True) 8
    ["        \"\"\"Connect nodes by action and return the runnable flow.\"\"\"",
      "        for source, routes in self.edges.items():",
      "            for action, target in routes.items():",
      "                if target == " ++ quoted errorHandler ++ ":",
      "                    continue",
      "                self.nodes[source] - action >> self.nodes[target]",
      "        return " ++ w.flowBase ++ "(start=self.nodes[" ++
        quoted ((w.nodes.head?.map (·.name)).getD "") ++ "])"] := by
  have hitems : (((((name "self").attr "edges").attr "items").call [])).IsExpression :=
    ((((isPrimary_name (by simp)).attr (by simp) 0 0).attr (by simp) 0 0).call
      (by simp)).isExpression
  have hstart : (named "start" (((name "self").attr "nodes").item
      (literal (quoted ((w.nodes.head?.map (·.name)).getD ""))))).IsArgument :=
    (isPrimary_selfItem (by simp) (isExpression_text (isText_quoted _))).isExpression.keyword
      (by simp) rfl
  have hreturn := isLine_return
    (isPrimary_call h (List.forall_mem_singleton.mpr hstart)).isExpression
  exact .note 0 "Connect nodes by action and return the runnable flow." trivial
    (isPlainText_ofList rfl) (by simp [docString]) <|
    .block 0 (forStatement "source" ["routes"] _)
    (fun rs hrs => hitems.forStatement (by simp) (by simp) (by simp) hrs) (by simp)
    (fun _ _ => trivial) (by decide) (by simp) laid_connect <|
    .simple 0 hreturn trivial (by simp) laid_nil

theorem laid_errorHandler : Laid (fun _ => True) 8
    ["        \"\"\"Record a failed step in the shared store.\"\"\"",
      "        shared[\"error\"] = str(error)",
      "        return \"error\""] := by
  have herror : IsText "\"error\"".toList := isText_plain "error" (isPlainText_ofList rfl)
  have hcall := (isPrimary_onOne (s := "str") (by simp)
    (isExpression_name (s := "error") (by simp))).isExpression
  have hplace := (isPrimary_name (s := "shared") (by simp)).item (isExpression_text herror)
  exact .note 0 "Record a failed step in the shared store." trivial (isPlainText_ofList rfl)
    (by simp [docString]) <|
    .simple 0 (hplace.isExpression.set hcall rfl rfl) trivial (by simp) <|
    .simple 0 (isLine_return (isExpression_text herror)) trivial (by simp) laid_nil

def built (f : String) : Phrase :=
  ((((name "self").attr "build").call []).attr f).call [name "shared"]

theorem isPrimary_built {f : String} (hf : IsName f) : (built f).IsPrimary :=
  (((((isPrimary_name (by simp)).attr (by simp) 0 0).call (by simp)).attr hf 0 0).call
    (List.forall_mem_singleton.mpr (isPrimary_name (by simp)).isExpression.isArgument))

/-- A call that is guarded against all faults. -/
theorem laid_guarded {p : Phrase} (h : p.IsExpression) (hflat : p.Flat)
    (hs : p.chars = s.toList) : Laid (fun _ => True) 8
    ["        try:", "            return " ++ s, "        except NotImplementedError:",
      "            raise", "        except Exception as error:",
      "            return self." ++ errorHandler ++ "(shared, error)"] := by
  have hcall : (((name "self").attr errorHandler).call
      [name "shared", name "error"]).IsExpression := by
    refine (((isPrimary_name (by simp)).attr (by simp [errorHandler]) 0 0).call ?_).isExpression
    rw [List.forall_mem_cons, List.forall_mem_singleton]
    exact ⟨(isPrimary_name (by simp)).isExpression.isArgument,
      (isPrimary_name (by simp)).isExpression.isArgument⟩
  have hraise : Laid (fun _ => True) 12 ["            raise"] :=
    .simple 0 ⟨isSimple_bare (w := "raise") (by decide), rfl⟩ trivial (by simp) laid_nil
  have hreturn : Laid (fun _ => True) 12
      ["            return self." ++ errorHandler ++ "(shared, error)"] :=
    .simple 0 (isLine_return hcall) trivial (by simp [errorHandler]) laid_nil
  have hclauses : LaidClauses (fun _ => True) 8 ["        except NotImplementedError:",
      "            raise", "        except Exception as error:",
      "            return self." ++ errorHandler ++ "(shared, error)"] :=
    .cons (isPrimary_name (s := "NotImplementedError") (by simp)).isExpression (by simp)
      (fun _ _ => trivial) (by simp) (by simp) hraise <|
    .cons (p := (name "Exception").aliased "error")
      ((isPrimary_name (by simp)).isOperand.isItem.aliased (by simp)) (by simp)
      (fun _ _ => trivial) (by simp) (by simp) hreturn laidClauses_nil
  exact .tried 0 (fun _ _ _ _ => trivial) (by simp) (by simp)
    (.simple 0 (isLine_return h) trivial (by simp [hs, hflat]) laid_nil) hclauses laid_nil

/-- The method that runs the flow. -/
theorem laid_run : Laid (fun _ => True) 4 ("" :: w.runLines) := by
  rw [WorkflowSpec.runLines]
  have hname : ∀ s ∈ ["self", "shared"], IsName s := (by simp)
  have hargs : ∀ p ∈ ["self", "shared"].map name, p.Flat := by simp
  cases w.hasAsync with
  | false =>
    refine .last 1 (.function 1 (isSignature_names (s := "run") (by simp) hname) ⟨hargs, by simp⟩
      (fun _ _ => trivial) (by simp) (by simp)
      (laid_guarded (isPrimary_built (f := "run") (by simp)).isExpression (by simp [built]) ?_)
      laid_nil)
    simp [built]
  | true =>
    refine .last 1 (.asyncFunction 1 (isSignature_names (s := "run_async") (by simp) hname)
      ⟨hargs, by simp⟩ (fun _ _ => trivial) (by simp) (by simp)
      (laid_guarded (isPrimary_built (f := "run_async") (by simp)).isOperand.awaited.isExpression
        (by simp [built]) ?_) laid_nil)
    simp [built]

end Methods

/-! ### The file -/

theorem isName_flowBase : IsName w.flowBase := by
  rw [WorkflowSpec.flowBase]
  split <;> simp

def nodeEntry (s : String) : String := "            " ++ quoted s ++ ": " ++ s ++ "(),"

def tableLines (w : WorkflowSpec) : List String :=
  "        self.nodes = \x7b" :: (w.nodeNames.map nodeEntry ++ ["        \x7d"] ++
    "        self.edges = \x7b" :: (w.routeTable.map WorkflowSpec.routeLine ++
      ["        \x7d"] ++ []))

theorem laid_tables (h : w.Valid) : Laid (fun _ => True) 8 (tableLines w) := by
  have hne : w.nodeNames ≠ [] := fun hnil => h.nodes_ne_nil (List.map_eq_nil_iff.mp hnil)
  have hroutes : w.routeTable ≠ [] := fun hnil => h.nodes_ne_nil (List.map_eq_nil_iff.mp hnil)
  have htext (s : String) : (literal (quoted s)).IsExpression ∧ (literal (quoted s)).Flat :=
    ⟨isExpression_text (isText_quoted s), flat_literal _⟩
  have hnode : ∀ s ∈ w.nodeNames, ((name s).call []).IsExpression ∧ ((name s).call []).Flat :=
    fun s hs => ⟨(isPrimary_call (isName_of_isClassName (h.isNodeName hs).isClassName)
      (by simp)).isExpression, by simp⟩
  have hentry : ∀ s ∈ w.nodeNames, List.replicate 12 ' ' ++
      (Phrase.pair (literal (quoted s)) ((name s).call [])).chars ++ [','] =
        (nodeEntry s).toList := by
    intro s _
    simp [nodeEntry]
  have hroute : ∀ e ∈ w.routeTable, List.replicate 12 ' ' ++
      (Phrase.pair (literal (quoted e.1)) (routePhrase e.2)).chars ++ [','] =
        (WorkflowSpec.routeLine e).toList := by
    intro e _
    rw [chars_pair, chars_routePhrase, WorkflowSpec.routeLine]
    simp
  have hedges := laid_table "edges" (by simp) hroutes (fun e _ => htext e.1)
    (fun e _ => isExpression_routePhrase e.2) hroute laid_nil
  exact laid_table "nodes" (by simp) hne (fun s _ => htext s) hnode hentry hedges

def methodLines (w : WorkflowSpec) : List String :=
  "    def __init__(self):" :: (tableLines w ++
    "" :: "    def build(self):" ::
    ("        \"\"\"Connect nodes by action and return the runnable flow.\"\"\"" ::
      "        for source, routes in self.edges.items():" ::
      "            for action, target in routes.items():" ::
      ("                if target == " ++ quoted errorHandler ++ ":") ::
      "                    continue" ::
      "                self.nodes[source] - action >> self.nodes[target]" ::
      ["        return " ++ w.flowBase ++ "(start=self.nodes[" ++
        quoted ((w.nodes.head?.map (·.name)).getD "") ++ "])"] ++
    "" :: ("    def " ++ errorHandler ++ "(self, shared, error):") ::
      "        \"\"\"Record a failed step in the shared store.\"\"\"" ::
      "        shared[\"error\"] = str(error)" ::
      "        return \"error\"" :: "" :: w.runLines))

theorem laid_methods (h : w.Valid) : Laid (fun _ => True) 4 ("" :: methodLines w) :=
  laid_method 1 ["self"] (s := "__init__") (by simp) (by simp) (by decide) (by simp [tableLines])
    (laid_tables h) <|
    laid_method 1 ["self"] (s := "build") (by simp) (by simp) (by decide) (by simp)
      (laid_build isName_flowBase) <|
    laid_method 1 ["self", "shared", "error"] (s := errorHandler) (by simp [errorHandler])
      (by simp) (by decide) (by simp) laid_errorHandler laid_run

theorem flowFile_lines (w : WorkflowSpec) : w.flowFile =
    unlines (docString ("Flow graph for " ++ docText w.name ++ ".") :: "" ::
      ("from pocketflow import " ++ w.flowBase) :: "" ::
      ("from nodes import " ++ commas w.nodeNames) :: "" :: "" ::
        ("class " ++ w.flowClass ++ ":") ::
      (("    " ++ docString ("Wires the " ++ docText w.name ++ " nodes into a flow graph.")) ::
        "" ::
        methodLines w)) := by
  rw [WorkflowSpec.flowFile, methodLines, tableLines]
  simp [nodeEntry, WorkflowSpec.nodeNames, Function.comp_def]

/-- **The file of the flow passes a check.** -/
theorem tolerated_flowFile (h : w.Valid) (hname : NullFree w.name) (path : String) :
    ∀ v ∈ detect path {} w.flowFile, v.Tolerated := by
  have hnames : ∀ s ∈ w.nodeNames, IsName s := fun s hs =>
    isName_of_isClassName (h.isNodeName hs).isClassName
  obtain ⟨t, ts, hts⟩ := List.exists_cons_of_ne_nil fun hnil : w.nodeNames = [] =>
    h.nodes_ne_nil (List.map_eq_nil_iff.mp hnil)
  have hdoc := isText_docAround "Wires the " " nodes into a flow graph." hname
    (isPlainText_ofList rfl) (isPlainText_ofList rfl)
  have hclass : Laid (StatementFits {}) 0 ("" :: "" :: ("class " ++ w.flowClass ++ ":") ::
      (("    " ++ docString ("Wires the " ++ docText w.name ++ " nodes into a flow graph.")) ::
        "" ::
        methodLines w)) := by
    refine .last 2 (.classOf 2 (Q := fun _ => True) (b := none) (isName_flowClass w) (by simp)
      (fun _ _ => statementFits_class (by simp)) (by simp) (by simp) ?_ laid_nil)
    exact .text 0 hdoc trivial (by simp) (laid_methods h)
  rw [flowFile_lines, hts]
  rw [hts] at hnames
  refine tolerated_of_open
    (isText_docAround _ _ hname (isPlainText_ofList rfl) (isPlainText_ofList rfl)) ?_ path
  exact .imports 1 "pocketflow" [] w.flowBase [] (by simp) (by simp [isName_flowBase])
    statementFits_plain (by simp) <|
    .imports 1 "nodes" [] t ts (by simp) hnames statementFits_plain (by simp [commas]) hclass

end AgentFlow.Code
