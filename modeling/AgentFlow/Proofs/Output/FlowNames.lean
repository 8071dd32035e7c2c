import AgentFlow.Proofs.Output.CodeNames
import AgentFlow.Proofs.Output.Parameters
import AgentFlow.Proofs.Output.RouteTable

/-!
# The names in the generated flow

The file of the flow imports the class that the flow runs on and the classes of the nodes, and then
defines a class of its own.  Its name is made of the name of the workflow, which no check compares
with the imported ones.  This file reads the imports and the definition back from the file and says
what each name stands for once all of them are made.

* `Origin`, `bindings`, `origin?`: the names at the top of a file; the last line that binds a name
  decides what it stands for.
* `flowClass_eq_flowBase_iff`: the class has the name of the one that it runs on for one name of a
  workflow, with asynchronous nodes.
* `Valid.bindings_flowFile`: the names in the file of the flow, in order.
* `Valid.origin?_flowFile`: **what each name stands for.**
* `flowFile_names`: the nodes are made of the imported classes exactly if no node has the name of
  the class of the flow.
-/

namespace AgentFlow

open Text Output Code

/-! ### Names at the top of a file -/

/-- Where a name comes from: from another file, or from the file itself. -/
inductive Origin where
  | imported (file : String)
  | defined
  deriving DecidableEq

def importBindings (rest : String) : List (String × Origin) :=
  let file := String.ofList (rest.toList.takeWhile (· != ' '))
  match afterHead? (file ++ " import ") rest with
  | some names => (listItems names).map (·, .imported file)
  | none => []

def lineBindings (line : String) : List (String × Origin) :=
  match afterHead? "from " line with
  | some rest => importBindings rest
  | none =>
    match afterHead? "class " line with
    | some rest => [(String.ofList (rest.toList.takeWhile (· != ':')), .defined)]
    | none => []

def bindings (file : String) : List (String × Origin) := (lines file).flatMap lineBindings

/-- What a name stands for after all lines of the file: the last one that binds it decides. -/
def origin? (file name : String) : Option Origin := (bindings file).reverse.lookup name

example : bindings "from a import B, C\n\nclass B:\n    pass\n" =
    [("B", .imported "a"), ("C", .imported "a"), ("B", .defined)] := by decide

/-! ### One line -/

variable {line name : String} {names : List String} {o : Origin}

/-- The items of a list of names are the names. -/
theorem listItems_names (h : ∀ s ∈ names, s.toList ≠ [] ∧ ∀ c ∈ s.toList, isNameChar c = true) :
    listItems (commas names) = names := by
  have hitem : ∀ s ∈ names, outerItems s = [s] := by
    intro s hs
    obtain ⟨hne, hchars⟩ := h s hs
    have hpieces : outerPieces 0 s.toList = [s.toList] := by
      have := outerPieces_append_plain (d := 0) (fun c hc => plain_of_isNameChar (hchars c hc)) []
      rwa [List.append_nil, outerPieces, List.modifyHead_cons, List.append_nil] at this
    have hhead : ∀ c ∈ s.toList.head?, isBlank c = false := fun c hc =>
      not_isBlank_of_isNameChar (hchars c (List.mem_of_mem_head? hc))
    rw [outerItems, hpieces, List.map_singleton, String.ofList_toList, trimStart,
      dropBlank_of_head hhead, String.ofList_toList]
  have hparts : ∀ s ∈ names, Closed s ∧ s ≠ "" := by
    intro s hs
    obtain ⟨hne, hchars⟩ := h s hs
    refine ⟨foldl_depthAfter_plain fun c hc => plain_of_isNameChar (hchars c hc), ?_⟩
    rintro rfl
    exact hne rfl
  calc listItems (commas names)
      _ = names.flatMap outerItems := listItems_commas hparts
      _ = names.flatMap ([·]) := congrArg List.flatten (List.map_congr_left hitem)
      _ = names := List.flatMap_singleton' names

/-- **An import binds the names that it lists.** -/
theorem lineBindings_import {file : String} (hfile : ' ' ∉ file.toList)
    (h : ∀ s ∈ names, s.toList ≠ [] ∧ ∀ c ∈ s.toList, isNameChar c = true)
    (hline : line.toList = "from ".toList ++ (file.toList ++ " import ".toList ++
      (commas names).toList)) :
    lineBindings line = names.map (·, .imported file) := by
  have hword : ∀ c ∈ file.toList, (c != ' ') = true := fun c hc =>
    bne_iff_ne.mpr (ne_of_mem_of_not_mem hc hfile)
  have hstart : " import ".toList = ' ' :: "import ".toList := rfl
  have hrest : (String.ofList (file.toList ++ " import ".toList ++ (commas names).toList)).toList =
      (file ++ " import ").toList ++ (commas names).toList := by
    rw [String.toList_ofList, String.toList_append]
  have hread : String.ofList ((String.ofList (file.toList ++ " import ".toList ++
      (commas names).toList)).toList.takeWhile (· != ' ')) = file := by
    rw [String.toList_ofList, List.append_assoc, List.takeWhile_append_of_pos hword, hstart,
      List.cons_append, List.takeWhile_cons_of_neg (by decide), List.append_nil,
      String.ofList_toList]
  rw [lineBindings, afterHead?_append hline]
  simp only [importBindings, hread, afterHead?_append hrest, String.ofList_toList]
  rw [listItems_names h]

/-- **The header of a class binds its name.** -/
theorem lineBindings_class (hname : ':' ∉ name.toList)
    (hline : line.toList = "class ".toList ++ (name.toList ++ [':'])) :
    lineBindings line = [(name, .defined)] := by
  have hword : ∀ c ∈ name.toList, (c != ':') = true := fun c hc =>
    bne_iff_ne.mpr (ne_of_mem_of_not_mem hc hname)
  have hfrom : afterHead? "from " line = none :=
    afterHead?_of_first (c := 'f') rfl (by simp [hline])
  rw [lineBindings, hfrom]
  simp only [afterHead?_append hline, String.toList_ofList]
  rw [List.takeWhile_append_of_pos hword, List.takeWhile_cons_of_neg (by decide), List.append_nil,
    String.ofList_toList]

/-- Lines that start with other characters bind nothing. -/
theorem flatMap_lineBindings_eq_nil {ls : List String}
    (h : ∀ l ∈ ls, ∀ c ∈ l.toList.head?, c ≠ 'f' ∧ c ≠ 'c') : ls.flatMap lineBindings = [] := by
  refine List.flatMap_eq_nil_iff.mpr fun l hl => ?_
  have hfrom : afterHead? "from " l = none :=
    afterHead?_of_first rfl fun hf => (h l hl 'f' hf).1 rfl
  have hclass : afterHead? "class " l = none :=
    afterHead?_of_first rfl fun hc => (h l hl 'c' hc).2 rfl
  rw [lineBindings, hfrom]
  simp only [hclass]

/-! ### Names that stand for one thing -/

/-- Among names of one origin, each stands for it. -/
theorem lookup_map_const (names : List String) (name : String) (o : Origin) :
    (names.map (·, o)).lookup name = if name ∈ names then some o else none := by
  induction names with
  | nil => rfl
  | cons n rest ih =>
    rw [List.map_cons, List.lookup_cons, ih]
    by_cases hn : name = n
    · have hmem : name ∈ n :: rest := List.mem_cons.mpr (.inl hn)
      rw [beq_iff_eq.mpr hn, if_pos hmem]
    · have hmem : name ∈ n :: rest ↔ name ∈ rest := by rw [List.mem_cons, or_iff_right hn]
      rw [beq_false_of_ne hn, if_congr hmem rfl rfl]

namespace WorkflowSpec

variable {w : WorkflowSpec}

/-! ### The name of the class -/

/-- The class of the flow is the one that it runs on only for one name, with asynchronous nodes. -/
theorem flowClass_eq_flowBase_iff :
    w.flowClass = w.flowBase ↔ w.hasAsync = true ∧ pascalCase w.name = "Async" := by
  have hplain : "Flow" = "" ++ "Flow" := rfl
  have hasync : "AsyncFlow" = "Async" ++ "Flow" := rfl
  rw [flowClass, flowBase]
  cases w.hasAsync with
  | true =>
    rw [if_pos rfl, hasync, String.append_left_inj]
    exact (and_iff_right rfl).symm
  | false =>
    rw [if_neg Bool.false_ne_true]
    refine iff_of_false (fun heq => ?_) fun hand => Bool.false_ne_true hand.1
    have hnil : pascalCase w.name = "" := (String.append_left_inj "Flow").mp (heq.trans hplain)
    obtain ⟨c, hc, -⟩ := head_pascalCase w.name
    rw [hnil] at hc
    exact absurd hc (by simp)

/-- No node has the name of the class that the flow runs on. -/
theorem Valid.flowBase_not_mem (h : w.Valid) : w.flowBase ∉ w.nodeNames := by
  have hbase : w.flowBase ∈ importedClasses := by
    rw [flowBase]
    split <;> decide
  exact fun hmem => (h.isNodeName hmem).not_imported hbase

/-! ### The names in the file -/

theorem bindings_flowTail : w.flowTail.flatMap lineBindings = [] := by
  refine flatMap_lineBindings_eq_nil ?_
  rw [flowTail, List.forall_mem_append]
  refine ⟨by simp, ?_⟩
  rw [runLines]
  cases w.hasAsync <;> simp

theorem Valid.bindings_flowHead (h : w.Valid) : w.flowHead.flatMap lineBindings =
    (w.flowBase, .imported "pocketflow") :: w.nodeNames.map (·, .imported "nodes") ++
      [(w.flowClass, .defined)] := by
  have hbase : lineBindings ("from pocketflow import " ++ w.flowBase) =
      [w.flowBase].map (·, .imported "pocketflow") := by
    refine lineBindings_import (by decide) ?_ (by simp [commas])
    rw [List.forall_mem_singleton, flowBase]
    split <;> decide
  have hnodes : lineBindings ("from nodes import " ++ commas w.nodeNames) =
      w.nodeNames.map (·, .imported "nodes") :=
    lineBindings_import (by decide)
      (fun s hs => ⟨(h.isNodeName hs).ne_nil, (h.isNodeName hs).nameChar⟩) (by simp)
  have hclass : lineBindings ("class " ++ w.flowClass ++ ":") = [(w.flowClass, .defined)] := by
    refine lineBindings_class (fun hmem => ?_) (by simp)
    exact ne_of_isNameChar (nameChar_flowClass w _ hmem) (by decide) rfl
  have hdoc : [docString ("Flow graph for " ++ docText w.name ++ "."), ""].flatMap lineBindings =
      [] :=
    flatMap_lineBindings_eq_nil (by simp [docString])
  have hblank : [""].flatMap lineBindings = [] := flatMap_lineBindings_eq_nil (by decide)
  have hbody : ["    " ++ docString ("Wires the " ++ docText w.name ++ " nodes into a flow graph."),
      "", "    def __init__(self):"].flatMap lineBindings = [] :=
    flatMap_lineBindings_eq_nil (by simp [docString])
  have hsplit : w.flowHead = [docString ("Flow graph for " ++ docText w.name ++ "."), ""] ++
      ("from pocketflow import " ++ w.flowBase) :: ([""] ++
        ("from nodes import " ++ commas w.nodeNames) :: ([""] ++ ([""] ++
          ("class " ++ w.flowClass ++ ":") ::
            ["    " ++ docString ("Wires the " ++ docText w.name ++ " nodes into a flow graph."),
              "", "    def __init__(self):"]))) := rfl
  rw [hsplit, List.flatMap_append, hdoc, List.nil_append, List.flatMap_cons, hbase,
    List.flatMap_append, hblank, List.nil_append, List.flatMap_cons, hnodes, List.flatMap_append,
    hblank, List.nil_append, List.flatMap_append, hblank, List.nil_append, List.flatMap_cons,
    hclass, hbody]
  rfl

/-- **The names in the file of the flow: what it runs on, the nodes, and its own class.** -/
theorem Valid.bindings_flowFile (h : w.Valid) : bindings w.flowFile =
    (w.flowBase, .imported "pocketflow") :: w.nodeNames.map (·, .imported "nodes") ++
      [(w.flowClass, .defined)] := by
  have htables : (nodesStart :: (w.nodeNames.map nodeLine ++ tableEnd :: routesStart ::
      (w.routeTable.map routeLine ++ [tableEnd]))).flatMap lineBindings = [] := by
    refine flatMap_lineBindings_eq_nil ?_
    simp only [List.forall_mem_append, List.forall_mem_cons, List.forall_mem_map]
    refine ⟨by decide, ?_, by decide, by decide, ?_, by decide,
      fun l hl => absurd hl List.not_mem_nil⟩
    · intro name _
      simp [nodeLine_eq]
    · intro e _
      simp [routeLine_eq]
  have hsplit : w.flowLines = w.flowHead ++ ((nodesStart :: (w.nodeNames.map nodeLine ++
      tableEnd :: routesStart :: (w.routeTable.map routeLine ++ [tableEnd]))) ++ w.flowTail) := by
    simp [flowLines]
  rw [bindings, h.lines_flowFile, hsplit, List.flatMap_append, List.flatMap_append, htables,
    bindings_flowTail, List.append_nil, List.append_nil, h.bindings_flowHead]

/-- **What a name stands for in the file of the flow.** -/
theorem Valid.origin?_flowFile (h : w.Valid) (name : String) : origin? w.flowFile name =
    if name = w.flowClass then some .defined
    else if name ∈ w.nodeNames then some (.imported "nodes")
    else if name = w.flowBase then some (.imported "pocketflow")
    else none := by
  have hparts : bindings w.flowFile = [w.flowBase].map (·, .imported "pocketflow") ++
      w.nodeNames.map (·, .imported "nodes") ++ [w.flowClass].map (·, .defined) :=
    h.bindings_flowFile
  rw [origin?, hparts]
  simp only [List.reverse_append, List.lookup_append, ← List.map_reverse, lookup_map_const,
    List.mem_reverse, List.mem_singleton]
  by_cases hself : name = w.flowClass
  · rw [if_pos hself, if_pos hself]
    rfl
  · rw [if_neg hself, if_neg hself, Option.none_or]
    by_cases hnode : name ∈ w.nodeNames
    · rw [if_pos hnode, if_pos hnode]
      rfl
    · rw [if_neg hnode, if_neg hnode, Option.none_or]

/-! ### Nodes and the flow -/

/-- The names that the file of the flow imports are different from its own class exactly if no node
has the name of the class and the class is not named after the one that it runs on. -/
theorem flowClass_not_mem_flowImports_iff : w.flowClass ∉ w.flowImports ↔
    w.flowClass ∉ w.nodeNames ∧ ¬ (w.hasAsync = true ∧ pascalCase w.name = "Async") := by
  have himports : w.flowImports = w.flowBase :: w.nodeNames := rfl
  rw [himports, List.mem_cons, not_or, flowClass_eq_flowBase_iff, and_comm]

variable (w) in
/-- What the names at the top of the file of the flow stand for. -/
structure FlowNames : Prop where
  isClassName : isClassName w.flowClass = true
  bindings_eq : bindings w.flowFile = (w.flowBase, .imported "pocketflow") ::
    w.nodeNames.map (·, .imported "nodes") ++ [(w.flowClass, .defined)]
  distinct_iff : w.flowClass ∉ w.flowImports ↔
    w.flowClass ∉ w.nodeNames ∧ ¬ (w.hasAsync = true ∧ pascalCase w.name = "Async")
  /-- The table of nodes is made of imported classes, unless a node has the name of the flow. -/
  nodes_iff : ∃ keys, readNodes? w.flowFile = some keys ∧
    (∀ name ∈ keys, origin? w.flowFile name =
      some (if name = w.flowClass then .defined else .imported "nodes")) ∧
    ((∀ name ∈ keys, origin? w.flowFile name = some (.imported "nodes")) ↔
      w.flowClass ∉ w.nodeNames)
  /-- The flow runs on an imported class, unless its own class has that name. -/
  base_iff : origin? w.flowFile w.flowBase = some (.imported "pocketflow") ↔
    ¬ (w.hasAsync = true ∧ pascalCase w.name = "Async")

theorem Valid.origin?_node (h : w.Valid) (hname : name ∈ w.nodeNames) : origin? w.flowFile name =
    some (if name = w.flowClass then .defined else .imported "nodes") := by
  rw [h.origin?_flowFile]
  by_cases hself : name = w.flowClass
  · rw [if_pos hself, if_pos hself]
  · rw [if_neg hself, if_neg hself, if_pos hname]

theorem Valid.nodes_imported_iff (h : w.Valid) :
    (∀ name ∈ w.nodeNames, origin? w.flowFile name = some (.imported "nodes")) ↔
      w.flowClass ∉ w.nodeNames := by
  constructor
  · intro himported hmem
    have hself := himported _ hmem
    rw [h.origin?_node hmem, if_pos rfl] at hself
    exact Origin.noConfusion (Option.some.inj hself)
  · intro hmem name hname
    rw [h.origin?_node hname, if_neg (ne_of_mem_of_not_mem hname hmem)]

theorem Valid.base_imported_iff (h : w.Valid) :
    origin? w.flowFile w.flowBase = some (.imported "pocketflow") ↔
      ¬ (w.hasAsync = true ∧ pascalCase w.name = "Async") := by
  rw [h.origin?_flowFile, ← flowClass_eq_flowBase_iff, if_neg h.flowBase_not_mem, if_pos rfl]
  by_cases hself : w.flowBase = w.flowClass
  · rw [if_pos hself]
    exact iff_of_false (by simp) fun hne => hne hself.symm
  · rw [if_neg hself]
    exact iff_of_true rfl fun he => hself he.symm

/-- **The class of the flow may be a class, but it differs from the imported ones exactly if no node
has its name and it is not named after the class that the flow runs on.**  Otherwise the table of
nodes is made of the class of the flow itself, or the flow runs on it. -/
theorem flowFile_names (h : w.validate = .ok ()) : w.FlowNames where
  isClassName := isClassName_flowClass w
  bindings_eq := (validate_eq_ok_iff.mp h).bindings_flowFile
  distinct_iff := flowClass_not_mem_flowImports_iff
  nodes_iff := by
    have hvalid := validate_eq_ok_iff.mp h
    exact ⟨w.nodeNames, hvalid.readNodes?_flowFile, fun name hname => hvalid.origin?_node hname,
      hvalid.nodes_imported_iff⟩
  base_iff := (validate_eq_ok_iff.mp h).base_imported_iff

/-- A node has the name of the class of the flow. -/
def selfNamed : WorkflowSpec where
  name := "demo"
  pattern := .workflow
  nodes := [.of "Load" .node "", .of "DemoFlow" .node ""]

/-- The class of the flow has the name of the class that it runs on. -/
def baseNamed : WorkflowSpec where
  name := "async"
  pattern := .workflow
  nodes := [.of "Load" .asyncNode ""]

theorem flowFile_names_clash :
    (selfNamed.validate = .ok () ∧ selfNamed.flowClass ∈ selfNamed.flowImports ∧
      readNodes? selfNamed.flowFile = some ["Load", "DemoFlow"] ∧
        origin? selfNamed.flowFile "DemoFlow" = some .defined) ∧
      baseNamed.validate = .ok () ∧ baseNamed.flowClass ∈ baseNamed.flowImports ∧
        origin? baseNamed.flowFile baseNamed.flowBase ≠ some (.imported "pocketflow") := by
  have hself : selfNamed.validate = .ok () := rfl
  have hbase : baseNamed.validate = .ok () := rfl
  have hnames : baseNamed.hasAsync = true ∧ pascalCase baseNamed.name = "Async" := by decide
  obtain ⟨keys, hkeys, horigin, -⟩ := (flowFile_names hself).nodes_iff
  obtain rfl : keys = ["Load", "DemoFlow"] :=
    Option.some.inj (hkeys.symm.trans (validate_eq_ok_iff.mp hself).readNodes?_flowFile)
  have hdefined : origin? selfNamed.flowFile "DemoFlow" = some .defined :=
    (horigin "DemoFlow" (by decide)).trans (by decide)
  refine ⟨⟨hself, by decide, hkeys, hdefined⟩, hbase, by decide, fun himported => ?_⟩
  exact (flowFile_names hbase).base_iff.mp himported hnames

end WorkflowSpec

end AgentFlow
