import AgentFlow.Flowchart.Printer
import AgentFlow.Proofs.Flowchart.Reading
import AgentFlow.Proofs.Output.OneLine

/-!
# Reading a drawn workflow

The chart of a valid specification is read back as a graph.  A node is read as it was declared, and
a transition as it was stated, except that a line which starts with the word for groups is taken
for one.

* `mem_nodeLines`, `forall_bodyLines`: the lines that a chart is written with.
* `Valid.linesOf_flowchart`: they are the lines of its text.
* `Valid.mem_read_nodes`, `Valid.read_arrows`: the graph that is read, for any valid specification.
* `read_flowchart_iff`: **the graph is that of the specification exactly if no node has a name
  that starts with the word for groups.**
-/

namespace AgentFlow

open Text Flowchart Output

/-! ### Lines of a chart -/

def NodeSpec.declarationLine (n : NodeSpec) : String :=
  (if n.origin = none then "    " else "        ") ++ n.declaration

def groupTitle (p : Pattern) : String :=
  "    subgraph " ++ Text.lower p.name ++ "_nodes[\"" ++ p.name ++ "\"]"

theorem groupTitle_eq (p : Pattern) : groupTitle p =
    "    subgraph " ++ Text.lower p.name ++ "_nodes[\"" ++ p.name ++ "\"]" := rfl

def groupEnd : String := "    end"

def handlerLine : String := "    " ++ errorHandler ++ "([\"" ++ errorHandler ++ "\"])"

def EdgeSpec.line (e : EdgeSpec) : String :=
  "    " ++ e.source ++ " -->|" ++ e.action ++ "| " ++ e.target

def EdgeSpec.arrow (e : EdgeSpec) : Arrow := ⟨e.source, e.action, e.target⟩

def errorLine (name : String) : String :=
  "    " ++ name ++ " -.->|" ++ errorAction ++ "| " ++ errorHandler

def errorArrow (name : String) : Arrow := ⟨name, errorAction, errorHandler⟩

/-! ### Single lines -/

theorem oneLine_groupTitle (p : Pattern) : OneLine (groupTitle p) := by
  cases p <;> decide

theorem oneLine_kindName (k : NodeKind) : OneLine k.name := by
  cases k <;> decide

theorem oneLine_declarationLine {n : NodeSpec} (h : IsNodeName n.name) :
    OneLine n.declarationLine := by
  have hindent : OneLine (if n.origin = none then "    " else "        ") := by split <;> decide
  simp only [NodeSpec.declarationLine, NodeSpec.declaration, oneLine_append, hindent, h.oneLine,
    oneLine_kindName, and_true, true_and]
  decide

theorem oneLine_errorLine {name : String} (h : IsNodeName name) : OneLine (errorLine name) := by
  simp only [errorLine, oneLine_append, h.oneLine, and_true]
  decide

/-! ### What the lines add -/

theorem toList_declaration (n : NodeSpec) : n.declaration.toList = n.name.toList ++
    ('[' :: '"' :: (n.name.toList ++ (" (".toList ++ (n.kind.name.toList ++ ")\"".toList))) ++
      [']']) := by
  simp [NodeSpec.declaration]

theorem toList_declarationLine (n : NodeSpec) :
    ∃ k, n.declarationLine.toList = List.replicate k ' ' ++ n.declaration.toList := by
  rw [NodeSpec.declarationLine, String.toList_append]
  split
  · exact ⟨4, rfl⟩
  · exact ⟨8, rfl⟩

theorem solid_declaration {n : NodeSpec} (h : IsNodeName n.name) : Solid n.declaration.toList := by
  rw [toList_declaration]
  exact (isWord_of_isNodeName h).solid.append (solid_of_not_isBlank (by decide) (by decide)) _

theorem noStroke_declaration {n : NodeSpec} (h : IsNodeName n.name) :
    ∀ c ∈ n.declaration.toList, noStroke c = true := by
  have hname : ∀ c ∈ n.name.toList, noStroke c = true := fun c hc =>
    noStroke_of_isNameChar (h.nameChar c hc)
  have hkind : ∀ c ∈ n.kind.name.toList, noStroke c = true := by
    cases n.kind <;> decide
  rw [toList_declaration]
  simp only [List.forall_mem_append, List.forall_mem_cons]
  exact ⟨hname, ⟨by decide, by decide, hname, by decide, hkind, by decide⟩, by decide,
    fun c hc => absurd hc List.not_mem_nil⟩

theorem trimmed_declarationLine {n : NodeSpec} (h : IsNodeName n.name) :
    trimmed n.declarationLine.toList = n.declaration.toList := by
  obtain ⟨k, hk⟩ := toList_declarationLine n
  rw [hk, trimmed_indent (solid_declaration h)]

/-- **A declaration is read as the node, unless its name starts with the word for groups.** -/
theorem added_declarationLine {n : NodeSpec} (h : IsNodeName n.name) :
    added n.declarationLine.toList =
      if startsWith n.name "subgraph" then {} else ⟨[n.name], []⟩ := by
  have hsolid := solid_declaration h
  have hlayout : isLayout n.declaration.toList = startsWith n.name "subgraph" := by
    rw [toList_declaration, List.cons_append]
    exact isLayout_name h (by decide) _
  have hname : nodeName n.declaration.toList = n.name.toList := by
    rw [toList_declaration] at hsolid ⊢
    exact nodeName_of_word (isWord_of_isNodeName h) hsolid (by rintro c ⟨⟩; rfl)
  rw [added, trimmed_declarationLine h, Graph.addLine, hlayout,
    splitArrow?_of_noStroke (noStroke_declaration h)]
  split
  · rfl
  · simp only [hname]
    split
    · next hnil => exact absurd hnil h.ne_nil
    · rw [String.ofList_toList]; rfl

/-- The parts of a line that draws an arrow from a node. -/
structure IsArrow (source : String) (stroke : List Char) (label target : String) : Prop where
  source : IsNodeName source
  stroke : IsStroke stroke
  label : IsLabel label.toList
  target : IsWord target.toList

/-- The characters of the line of an arrow, without the blanks before it. -/
abbrev arrowChars (source : String) (stroke : List Char) (label target : String) : List Char :=
  arrowText source.toList stroke label.toList target.toList

theorem toList_edgeLine (e : EdgeSpec) : e.line.toList =
    List.replicate 4 ' ' ++ arrowChars e.source "-->".toList e.action e.target := by
  simp [EdgeSpec.line, arrowText, List.replicate]

theorem toList_errorLine (name : String) : (errorLine name).toList =
    List.replicate 4 ' ' ++ arrowChars name "-.->".toList errorAction errorHandler := by
  simp [errorLine, arrowText, List.replicate]

theorem isArrow_error {name : String} (h : IsNodeName name) :
    IsArrow name "-.->".toList errorAction errorHandler where
  source := h
  stroke := fun _ => rfl
  label := ⟨by decide, by decide⟩
  target := isWord_errorHandler

section

variable {source target label : String} {stroke : List Char}

theorem IsArrow.trimmed_eq (h : IsArrow source stroke label target) :
    trimmed (List.replicate 4 ' ' ++ arrowChars source stroke label target) =
      arrowChars source stroke label target := by
  refine trimmed_indent ?_ 4
  have := (isWord_of_isNodeName h.source).solid.append h.target.solid
    (' ' :: (stroke ++ '|' :: (label.toList ++ ['|', ' '])))
  simpa [arrowText] using this

/-- An arrow is read with its ends and its label, unless its line starts with the word for
groups. -/
theorem IsArrow.added_eq (h : IsArrow source stroke label target) :
    added (List.replicate 4 ' ' ++ arrowChars source stroke label target) =
      if startsWith source "subgraph" then {} else ⟨[], [⟨source, label, target⟩]⟩ := by
  have hword := isWord_of_isNodeName h.source
  have hlayout : isLayout (arrowChars source stroke label target) = startsWith source "subgraph" :=
    isLayout_name h.source (by decide) _
  rw [added, h.trimmed_eq, Graph.addLine, hlayout,
    splitArrow?_arrowText hword h.stroke h.label h.target]
  split
  · rfl
  · simp only [nodeName_self hword, nodeName_self h.target, String.ofList_toList]
    rfl

end

theorem added_errorLine {name : String} (h : IsNodeName name) :
    added (errorLine name).toList =
      if startsWith name "subgraph" then {} else ⟨[], [errorArrow name]⟩ := by
  rw [toList_errorLine]
  exact (isArrow_error h).added_eq

theorem added_groupTitle (p : Pattern) : added (groupTitle p).toList = {} := by
  cases p <;> decide

theorem added_groupEnd : added groupEnd.toList = {} := by decide

theorem added_handlerLine : added handlerLine.toList = ⟨[errorHandler], []⟩ := by decide

namespace WorkflowSpec

variable {w : WorkflowSpec}

variable (w) in
def bodyLines : List String :=
  w.nodeLines ++ handlerLine :: (w.resolvedEdges.map (·.line) ++ w.nodeNames.map errorLine)

theorem flowchartLines_eq : w.flowchartLines = "flowchart TD" :: w.bodyLines := by
  simp [flowchartLines, bodyLines, handlerLine, nodeNames, errorLine, EdgeSpec.line,
    Function.comp_def]

variable (w) in
def members (origin : Option Pattern) : List NodeSpec := w.nodes.filter (·.origin == origin)

theorem mem_members {origin : Option Pattern} {n : NodeSpec} :
    n ∈ w.members origin ↔ n ∈ w.nodes ∧ n.origin = origin := by
  rw [members, List.mem_filter, beq_iff_eq]

/-- The lines of a group: none, or its nodes between a line that opens it and one that closes it. -/
theorem groupLines_eq (p : Pattern) :
    w.groupLines p = if w.members (some p) = [] then []
      else groupTitle p :: ((w.members (some p)).map (·.declarationLine) ++ [groupEnd]) := by
  have hlines : (w.members (some p)).map (fun n => "        " ++ n.declaration) =
      (w.members (some p)).map (·.declarationLine) := by
    refine List.map_congr_left fun n hn => ?_
    rw [NodeSpec.declarationLine, (mem_members.mp hn).2, if_neg nofun]
  rw [groupLines, ← hlines, members]
  split
  · next hnil => rw [if_pos hnil]
  · next hne => rw [if_neg fun h => hne h]; rfl

/-- The lines for nodes: those of no particular origin and then the groups. -/
theorem nodeLines_eq : w.nodeLines =
    (w.members none).map (·.declarationLine) ++ Pattern.all.flatMap w.groupLines := by
  rw [nodeLines]
  refine congrArg (· ++ Pattern.all.flatMap w.groupLines) (List.map_congr_left fun n hn => ?_)
  rw [NodeSpec.declarationLine, if_pos (mem_members.mp hn).2]

/-- Every line for nodes declares one or opens or closes a group. -/
theorem mem_nodeLines {l : String} (h : l ∈ w.nodeLines) :
    (∃ n ∈ w.nodes, l = n.declarationLine) ∨ (∃ p, l = groupTitle p) ∨ l = groupEnd := by
  have hmembers : ∀ {origin}, l ∈ (w.members origin).map (·.declarationLine) →
      ∃ n ∈ w.nodes, l = n.declarationLine := by
    intro origin hl
    obtain ⟨n, hn, rfl⟩ := List.mem_map.mp hl
    exact ⟨n, (mem_members.mp hn).1, rfl⟩
  rw [nodeLines_eq, List.mem_append, List.mem_flatMap] at h
  rcases h with h | ⟨p, -, h⟩
  · exact .inl (hmembers h)
  · rw [groupLines_eq] at h
    split at h
    · exact absurd h List.not_mem_nil
    · rw [List.mem_cons, List.mem_append, List.mem_singleton] at h
      rcases h with h | h | h
      · exact .inr (.inl ⟨p, h⟩)
      · exact .inl (hmembers h)
      · exact .inr (.inr h)

theorem mem_all (p : Pattern) : p ∈ Pattern.all := by
  cases p <;> decide

/-- Every node is declared, in the group of its pattern or before all groups. -/
theorem declarationLine_mem_nodeLines {n : NodeSpec} (hn : n ∈ w.nodes) :
    n.declarationLine ∈ w.nodeLines := by
  have hmem : n.declarationLine ∈ (w.members n.origin).map (·.declarationLine) :=
    List.mem_map.mpr ⟨n, mem_members.mpr ⟨hn, rfl⟩, rfl⟩
  rw [nodeLines_eq, List.mem_append]
  cases hp : n.origin with
  | none => rw [hp] at hmem; exact .inl hmem
  | some p =>
    rw [hp] at hmem
    refine .inr (List.mem_flatMap.mpr ⟨p, mem_all p, ?_⟩)
    rw [groupLines_eq, if_neg fun hnil => absurd (hnil ▸ hmem) List.not_mem_nil]
    exact List.mem_cons_of_mem _ (List.mem_append_left _ hmem)

/-- What holds of every kind of line holds of every line. -/
theorem forall_bodyLines {P : String → Prop} (hnode : ∀ n ∈ w.nodes, P n.declarationLine)
    (hgroup : ∀ p, P (groupTitle p)) (hend : P groupEnd) (hhandler : P handlerLine)
    (hedge : ∀ e ∈ w.resolvedEdges, P e.line) (herror : ∀ name ∈ w.nodeNames, P (errorLine name)) :
    ∀ l ∈ w.bodyLines, P l := by
  intro l hl
  rw [bodyLines, List.mem_append, List.mem_cons, List.mem_append, List.mem_map, List.mem_map] at hl
  rcases hl with hl | rfl | ⟨e, he, rfl⟩ | ⟨name, hname, rfl⟩
  · rcases mem_nodeLines hl with ⟨n, hn, rfl⟩ | ⟨p, rfl⟩ | rfl
    · exact hnode n hn
    · exact hgroup p
    · exact hend
  · exact hhandler
  · exact hedge e he
  · exact herror name hname

/-! ### The text of a chart -/

theorem Valid.oneLine_edgeLine (h : w.Valid) {e : EdgeSpec} (he : e ∈ w.resolvedEdges) :
    OneLine e.line := by
  have hv := h.resolvedEdge he
  simp only [EdgeSpec.line, oneLine_append, (h.isNodeName hv.source).oneLine,
    (h.isNodeName hv.target).oneLine, oneLine_of_isActionLabel hv.action, and_true]
  decide

theorem Valid.oneLine_bodyLines (h : w.Valid) : ∀ l ∈ w.bodyLines, OneLine l :=
  forall_bodyLines (fun n hn => oneLine_declarationLine (h.nodeNames n hn)) oneLine_groupTitle
    (by decide) (by decide) (fun _ he => h.oneLine_edgeLine he)
    fun _ hn => oneLine_errorLine (h.isNodeName hn)

theorem bodyLines_ne_empty : ∀ l ∈ w.bodyLines, l ≠ "" := by
  have hindent : ∀ s t : String, s ≠ "" → s ++ t ≠ "" := by
    intro s t hs h
    exact hs (String.append_eq_empty_iff.mp h).1
  refine forall_bodyLines (fun n _ => ?_) (fun p => ?_) (by decide) (by decide) (fun e _ => ?_)
    (fun name _ => ?_)
  · refine hindent _ _ ?_
    split <;> decide
  · cases p <;> decide
  · exact hindent _ _ (hindent _ _ (hindent _ _ (hindent _ _ (hindent _ _ (by decide)))))
  · exact hindent _ _ (hindent _ _ (hindent _ _ (hindent _ _ (hindent _ _ (by decide)))))

theorem Valid.oneLine_flowchartLines (h : w.Valid) : ∀ l ∈ w.flowchartLines, OneLine l := by
  rw [flowchartLines_eq, List.forall_mem_cons]
  exact ⟨by decide, h.oneLine_bodyLines⟩

/-- The lines of the text of a chart are those that it is written with. -/
theorem Valid.linesOf_flowchart (h : w.Valid) :
    linesOf w.flowchart.toList = w.flowchartLines.map String.toList := by
  refine linesOf_intercalate h.oneLine_flowchartLines fun l hl => ?_
  have hmem : l ∈ "flowchart TD" :: w.bodyLines := flowchartLines_eq ▸ List.mem_of_getLast? hl
  rcases List.mem_cons.mp hmem with rfl | hbody
  · decide
  · exact bodyLines_ne_empty l hbody

theorem Valid.read_flowchart (h : w.Valid) :
    Graph.read w.flowchart = Graph.ofLines (w.bodyLines.map String.toList) := by
  rw [Graph.read, h.linesOf_flowchart, flowchartLines_eq]
  rfl

/-! ### The graph that is read -/

theorem Valid.isArrow_edge (h : w.Valid) {e : EdgeSpec} (he : e ∈ w.resolvedEdges) :
    IsArrow e.source "-->".toList e.action e.target where
  source := h.isNodeName (h.resolvedEdge he).source
  stroke := fun _ => rfl
  label := ⟨(labelChar_of_isActionLabel (h.resolvedEdge he).action).1,
    (labelChar_of_isActionLabel (h.resolvedEdge he).action).2⟩
  target := isWord_of_isNodeName (h.isNodeName (h.resolvedEdge he).target)

theorem added_edgeLine (h : w.Valid) {e : EdgeSpec} (he : e ∈ w.resolvedEdges) :
    added e.line.toList = if startsWith e.source "subgraph" then {} else ⟨[], [e.arrow]⟩ := by
  rw [toList_edgeLine]
  exact (h.isArrow_edge he).added_eq

/-- Lines for nodes draw no arrow. -/
theorem Valid.nodeLines_arrows (h : w.Valid) {l : String} (hl : l ∈ w.nodeLines) :
    (added l.toList).arrows = [] := by
  rcases mem_nodeLines hl with ⟨n, hn, rfl⟩ | ⟨p, rfl⟩ | rfl
  · rw [added_declarationLine (h.nodeNames n hn)]
    split <;> rfl
  · rw [added_groupTitle]
  · rw [added_groupEnd]

/-- Lines that each draw one arrow at most draw those whose lines are not taken for groups. -/
theorem flatMap_arrows {α : Type} (line : α → String) (arrow : α → Arrow) {items : List α}
    (h : ∀ x ∈ items, added (line x).toList =
      if startsWith (arrow x).source "subgraph" then {} else ⟨[], [arrow x]⟩) :
    ((items.map line).flatMap fun l => (added l.toList).arrows) =
      (items.map arrow).filter fun a => !startsWith a.source "subgraph" := by
  induction items with
  | nil => rfl
  | cons x rest ih =>
    rw [List.forall_mem_cons] at h
    rw [List.map_cons, List.flatMap_cons, ih h.2, h.1, List.map_cons, List.filter_cons]
    cases startsWith (arrow x).source "subgraph" <;> rfl

/-- **The arrows of the chart are read in order, except those of lines taken for groups.** -/
theorem Valid.read_arrows (h : w.Valid) :
    (Graph.read w.flowchart).arrows =
      (w.resolvedEdges.map (·.arrow) ++ w.nodeNames.map errorArrow).filter
        fun a => !startsWith a.source "subgraph" := by
  have hnodes : (w.nodeLines.flatMap fun l => (added l.toList).arrows) = [] :=
    List.flatMap_eq_nil_iff.mpr fun l hl => h.nodeLines_arrows hl
  rw [h.read_flowchart, Graph.ofLines_arrows, List.flatMap_map, bodyLines, List.flatMap_append,
    List.flatMap_cons, List.flatMap_append, hnodes, added_handlerLine,
    flatMap_arrows EdgeSpec.line EdgeSpec.arrow fun e he => added_edgeLine h he,
    flatMap_arrows errorLine errorArrow fun name hname => added_errorLine (h.isNodeName hname),
    List.filter_append]
  rfl

/-- **The nodes of the chart are read, except those whose lines are taken for groups.** -/
theorem Valid.mem_read_nodes (h : w.Valid) {x : String} :
    x ∈ (Graph.read w.flowchart).nodes ↔
      x ∈ w.nodeNames ∧ startsWith x "subgraph" = false ∨ x = errorHandler := by
  rw [h.read_flowchart, Graph.ofLines_nodes, List.flatMap_map, List.mem_flatMap]
  constructor
  · rintro ⟨l, hl, hx⟩
    revert hx
    refine forall_bodyLines (P := fun l => x ∈ (added l.toList).nodes → _) ?_ ?_ ?_ ?_ ?_ ?_ l hl
    · intro n hn hx
      rw [added_declarationLine (h.nodeNames n hn)] at hx
      cases hg : startsWith n.name "subgraph" with
      | true => rw [hg] at hx; exact absurd hx List.not_mem_nil
      | false =>
        rw [hg] at hx
        obtain rfl := List.mem_singleton.mp hx
        exact .inl ⟨List.mem_map.mpr ⟨n, hn, rfl⟩, hg⟩
    · intro p hx
      rw [added_groupTitle] at hx
      exact absurd hx List.not_mem_nil
    · intro hx
      rw [added_groupEnd] at hx
      exact absurd hx List.not_mem_nil
    · intro hx
      rw [added_handlerLine] at hx
      exact .inr (List.mem_singleton.mp hx)
    · intro e he hx
      rw [added_edgeLine h he] at hx
      split at hx <;> exact absurd hx List.not_mem_nil
    · intro name hname hx
      rw [added_errorLine (h.isNodeName hname)] at hx
      split at hx <;> exact absurd hx List.not_mem_nil
  · rintro (⟨hx, hg⟩ | rfl)
    · obtain ⟨n, hn, rfl⟩ := List.mem_map.mp hx
      refine ⟨n.declarationLine, List.mem_append_left _ (declarationLine_mem_nodeLines hn), ?_⟩
      rw [added_declarationLine (h.nodeNames n hn), hg]
      exact List.mem_singleton.mpr rfl
    · refine ⟨handlerLine, List.mem_append_right _ List.mem_cons_self, ?_⟩
      rw [added_handlerLine]
      exact List.mem_singleton.mpr rfl

variable (w) in
/-- No name of a node starts with the word for groups. -/
def NoGroupNames : Prop := ∀ n ∈ w.nodeNames, startsWith n "subgraph" = false

instance : Decidable w.NoGroupNames := inferInstanceAs (Decidable (∀ n ∈ w.nodeNames, _))

/-- **The chart is read back as the workflow exactly if no name of a node starts with the word for
groups.** -/
theorem read_flowchart_iff (h : w.validate = .ok ()) :
    ((∀ x, x ∈ (Graph.read w.flowchart).nodes ↔ x ∈ w.nodeNames ∨ x = errorHandler) ∧
      (Graph.read w.flowchart).arrows =
        w.resolvedEdges.map (·.arrow) ++ w.nodeNames.map errorArrow) ↔
      w.NoGroupNames := by
  have hv := validate_eq_ok_iff.mp h
  constructor
  · rintro ⟨hnodes, -⟩ n hn
    rcases hv.mem_read_nodes.mp ((hnodes n).mpr (.inl hn)) with hread | hread
    · exact hread.2
    · exact absurd hread (hv.isNodeName hn).ne_handler
  · intro hplain
    refine ⟨fun x => ?_, ?_⟩
    · rw [hv.mem_read_nodes]
      exact or_congr_left (and_iff_left_of_imp (hplain x))
    · rw [hv.read_arrows, List.filter_eq_self, List.forall_mem_append]
      refine ⟨fun a ha => ?_, fun a ha => ?_⟩
      · obtain ⟨e, he, rfl⟩ := List.mem_map.mp ha
        rw [EdgeSpec.arrow, hplain e.source (hv.resolvedEdge he).source]
        rfl
      · obtain ⟨name, hname, rfl⟩ := List.mem_map.mp ha
        rw [errorArrow, hplain name hname]
        rfl

theorem read_flowchart_reviewLoop :
    reviewLoop.validate = .ok () ∧
      (∀ x, x ∈ (Graph.read reviewLoop.flowchart).nodes ↔
        x ∈ reviewLoop.nodeNames ∨ x = errorHandler) ∧
      (Graph.read reviewLoop.flowchart).arrows =
        reviewLoop.resolvedEdges.map (·.arrow) ++ reviewLoop.nodeNames.map errorArrow :=
  ⟨rfl, (read_flowchart_iff rfl).mpr (by decide)⟩

end WorkflowSpec

end AgentFlow
