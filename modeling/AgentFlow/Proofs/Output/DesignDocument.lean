import AgentFlow.Output.Documents
import AgentFlow.Proofs.Flowchart.Checking
import AgentFlow.Proofs.Flowchart.Fences

/-!
# The diagram of the design document

The design document holds the flow chart in a fence.  Names of nodes and utilities, types and cells
of tables stay on their lines, but the name of the workflow, its description and the paths of
endpoints are written as they are, and each of them may break its line.

* `Harmless`: no line of a written part opens a fence.
* `harmless_row`, `harmless_pathRow_iff`: rows of tables, and the row of a path.
* `harmless_documentHead_iff`, `Valid.harmless_documentTail_iff`: what is written before the chart
  and after it.
* `designDocument_iff`: **the chart is the only diagram of the document and nothing is wrong with it
  exactly if no free text opens a fence and no name of a node starts with the word for groups.**
-/

namespace AgentFlow

open Text Flowchart Output

/-! ### Lines that open no fence -/

/-- A line that opens a fence holds the word for it and blanks only. -/
theorem exists_blanks_of_opensFence {l : String} (h : opensFence l = true) :
    ∃ before after : List Char, (∀ c ∈ before, isBlank c = true) ∧
      (∀ c ∈ after, isBlank c = true) ∧ l.toList = before ++ ("```mermaid".toList ++ after) := by
  obtain ⟨before, after, hbefore, hafter, hl⟩ := exists_blanks l
  rw [beq_iff_eq.mp h] at hl
  exact ⟨before, after, hbefore, hafter, hl⟩

/-- A line that starts with a character other than a blank and a backquote opens no fence. -/
theorem opensFence_of_head {l : String} {c : Char} (hl : l.toList.head? = some c)
    (hb : isBlank c = false) (hc : c ≠ '\x60') : opensFence l = false := by
  cases ho : opensFence l with
  | false => rfl
  | true =>
    obtain ⟨before, after, hbefore, -, heq⟩ := exists_blanks_of_opensFence ho
    rw [heq] at hl
    cases before with
    | nil => exact absurd (Option.some.inj hl).symm hc
    | cons b before =>
      have : isBlank c = true := Option.some.inj hl ▸ hbefore b List.mem_cons_self
      exact Bool.noConfusion (hb.symm.trans this)

/-- A line that ends with a character other than a blank and the last letter opens no fence. -/
theorem opensFence_of_last {l : String} {c : Char} (hl : l.toList.getLast? = some c)
    (hb : isBlank c = false) (hc : c ≠ 'd') : opensFence l = false := by
  cases ho : opensFence l with
  | false => rfl
  | true =>
    obtain ⟨before, after, -, hafter, heq⟩ := exists_blanks_of_opensFence ho
    rw [heq, List.getLast?_append, List.getLast?_append] at hl
    cases ha : after.getLast? with
    | none =>
      rw [ha] at hl
      exact absurd (Option.some.inj hl).symm hc
    | some a =>
      rw [ha] at hl
      have hmem : c ∈ after := List.mem_of_getLast? (ha.trans hl)
      exact Bool.noConfusion (hb.symm.trans (hafter c hmem))

/-! ### Parts of a document -/

/-- No line of a part opens a fence. -/
def Harmless (part : String) : Prop := ∀ l ∈ pieces (· == '\n') part, opensFence l = false

instance (part : String) : Decidable (Harmless part) :=
  inferInstanceAs (Decidable (∀ l ∈ pieces (· == '\n') part, _))

def partLines (part : String) : List String := (closedLines part.toList).map String.ofList

theorem lines_unlines_eq (parts : List String) :
    lines (unlines parts) = parts.flatMap partLines := by
  rw [lines, linesOf_unlines, List.map_flatMap]
  rfl

theorem partLines_of_oneLine {part : String} (h : OneLine part) : partLines part = [part] := by
  rw [partLines, closedLines_of_oneLine h, List.map_singleton, String.ofList_toList]

/-- A carriage return at the end of a line is a blank. -/
theorem opensFence_dropReturn (cs : List Char) :
    opensFence (String.ofList (dropReturn cs)) = opensFence (String.ofList cs) := by
  have htrim : trim (String.ofList (dropReturn cs)) = trim (String.ofList cs) := by
    unfold dropReturn
    split
    · next rest hr =>
      have hcs : cs = rest.reverse ++ ['\r'] := by
        rw [← List.reverse_reverse cs, hr, List.reverse_cons]
      rw [trim, trim, String.toList_ofList, String.toList_ofList, hcs,
        dropBlankEnd_dropBlank_append (by decide)]
    · rfl
  rw [opensFence, opensFence, htrim]

theorem harmless_iff {part : String} :
    Harmless part ↔ ∀ l ∈ partLines part, opensFence l = false := by
  rw [Harmless, pieces_newline, partLines, closedLines, List.map_map, List.forall_mem_map,
    List.forall_mem_map]
  simp only [Function.comp_apply, opensFence_dropReturn]

theorem harmless_of_oneLine {part : String} {c : Char} (h : OneLine part)
    (hl : part.toList.head? = some c) (hb : isBlank c = false) (hc : c ≠ '\x60') :
    Harmless part := by
  rw [harmless_iff, partLines_of_oneLine h]
  intro l hmem
  rw [List.mem_singleton.mp hmem]
  exact opensFence_of_head hl hb hc

/-- A text that stays on its line is harmless after one that shows that the line is no fence. -/
theorem harmless_append {start s : String} {c : Char} (hstart : start.toList.head? = some c)
    (hone : OneLine start) (h : OneLine s) (hb : isBlank c = false) (hc : c ≠ '\x60') :
    Harmless (start ++ s) := by
  refine harmless_of_oneLine (oneLine_append.mpr ⟨hone, h⟩) ?_ hb hc
  rw [String.toList_append, List.head?_append, hstart]
  rfl

/-- What may be left out is harmless if it is harmless where it stands. -/
theorem harmless_unless {absent : Bool} {parts : List String} (h : ∀ part ∈ parts, Harmless part) :
    ∀ part ∈ (if absent then [] else parts), Harmless part := by
  cases absent with
  | true => exact List.forall_mem_nil _
  | false => exact h

/-- A row whose cells stay on its line is harmless. -/
theorem harmless_row {cells : List String} (h : ∀ s ∈ cells, OneLine s) : Harmless (row cells) := by
  have hcells : OneLine (" | ".intercalate cells) := oneLine_intercalate (by decide) h
  have hrow : OneLine (row cells) := by
    rw [row, oneLine_append, oneLine_append]
    exact ⟨⟨by decide, hcells⟩, by decide⟩
  have hhead : (row cells).toList.head? = some '|' := by
    rw [row, String.toList_append, String.toList_append]
    rfl
  exact harmless_of_oneLine hrow hhead (by decide) (by decide)

/-- After a title, only what follows the first line of a text can open a fence. -/
theorem harmless_title_iff {title : String} {c : Char} (htitle : title.toList.head? = some c)
    (hone : OneLine title) (hb : isBlank c = false) (hc : c ≠ '\x60') (s : String) :
    Harmless (title ++ s) ↔ ∀ l ∈ (pieces (· == '\n') s).drop 1, opensFence l = false := by
  obtain ⟨first, rest, hs, htext⟩ := splitOn_append_left hone.1 s.toList
  have hfirst : opensFence (String.ofList (title.toList ++ first)) = false := by
    refine opensFence_of_head ?_ hb hc
    rw [String.toList_ofList, List.head?_append, htitle]
    rfl
  rw [Harmless, pieces_newline, pieces_newline, String.toList_append, hs, htext, List.map_cons,
    List.map_cons, List.forall_mem_cons, List.drop_one, List.tail_cons]
  exact and_iff_right hfirst

/-- Between two bars, only what stands between the first and the last line of a text can open a
fence. -/
theorem harmless_between_iff {before after : String} (hbefore : before.toList.head? = some '|')
    (hafter : after.toList.getLast? = some '|') (hone : OneLine before) (hone' : OneLine after)
    (s : String) :
    Harmless (before ++ s ++ after) ↔
      ∀ l ∈ ((pieces (· == '\n') s).drop 1).dropLast, opensFence l = false := by
  have hstart : ∀ cs, opensFence (String.ofList (before.toList ++ cs)) = false := by
    intro cs
    refine opensFence_of_head ?_ (by decide : isBlank '|' = false) (by decide)
    rw [String.toList_ofList, List.head?_append, hbefore]
    rfl
  have hend : ∀ cs, opensFence (String.ofList (cs ++ after.toList)) = false := by
    intro cs
    refine opensFence_of_last ?_ (by decide : isBlank '|' = false) (by decide)
    rw [String.toList_ofList, List.getLast?_append, hafter]
    rfl
  obtain ⟨init, last, hs, hsafter⟩ := splitOn_append_right hone'.1 s.toList
  obtain ⟨first, rest, hfirst, htext⟩ :=
    splitOn_append_left hone.1 (s.toList ++ after.toList)
  rw [hsafter] at hfirst
  rw [Harmless, pieces_newline, pieces_newline, String.toList_append, String.toList_append,
    List.append_assoc, hs, htext]
  -- The first piece stands after the first bar, and the last one before the last bar.
  cases init with
  | nil =>
    obtain ⟨-, rfl⟩ := List.cons.inj hfirst
    simpa using hstart first
  | cons i init =>
    rw [List.cons_append] at hfirst
    obtain ⟨-, rfl⟩ := List.cons.inj hfirst
    rw [List.map_cons, List.forall_mem_cons, List.cons_append, List.map_cons, List.drop_one,
      List.tail_cons, List.map_append, List.map_append, List.forall_mem_append, List.map_singleton,
      List.map_singleton, List.dropLast_concat]
    constructor
    · exact fun h => h.2.1
    · refine fun h => ⟨hstart first, h, fun l hl => ?_⟩
      rw [List.mem_singleton.mp hl]
      exact hend last

/-! ### Tables -/

theorem oneLine_rule (columns : List String) :
    OneLine ("|" ++ String.join (columns.map fun _ => "---|")) := by
  rw [oneLine_iff, String.toList_append, String.toList_join, List.forall_mem_append]
  refine ⟨by decide, fun c hc => ?_⟩
  obtain ⟨s, hs, hcs⟩ := List.mem_flatMap.mp hc
  obtain ⟨_, -, rfl⟩ := List.mem_map.mp hs
  have hall : ∀ c ∈ "---|".toList, c ≠ '\n' ∧ c ≠ '\r' := by decide
  exact hall c hcs

/-- A section with a table is harmless if its rows are. -/
theorem harmless_tableSection_iff {title : String} {columns : List String}
    {rows : List (List String)} (htitle : OneLine title) (hcolumns : ∀ c ∈ columns, OneLine c) :
    (∀ part ∈ tableSection title columns rows, Harmless part) ↔ ∀ r ∈ rows, Harmless (row r) := by
  have hempty : Harmless "" := by decide
  have hheading : Harmless ("## " ++ title) :=
    harmless_append (by decide : "## ".toList.head? = some '#') (by decide) htitle (by decide)
      (by decide)
  have hrule : Harmless ("|" ++ String.join (columns.map fun _ => "---|")) := by
    have hhead : ("|" ++ String.join (columns.map fun _ => "---|")).toList.head? = some '|' := by
      rw [String.toList_append]
      rfl
    exact harmless_of_oneLine (oneLine_rule columns) hhead (by decide) (by decide)
  simp only [tableSection, List.forall_mem_append, List.forall_mem_cons, List.forall_mem_map,
    hempty, hheading, hrule, harmless_row hcolumns, true_and]
  exact and_iff_right fun part hpart => absurd hpart List.not_mem_nil

/-- A section with a table is harmless if every cell stays on its line. -/
theorem harmless_tableSection {title : String} {columns : List String} {rows : List (List String)}
    (htitle : OneLine title) (hcolumns : ∀ c ∈ columns, OneLine c)
    (hrows : ∀ r ∈ rows, ∀ s ∈ r, OneLine s) :
    ∀ part ∈ tableSection title columns rows, Harmless part :=
  (harmless_tableSection_iff htitle hcolumns).mpr fun r hr => harmless_row (hrows r hr)

theorem oneLine_code {s : String} (h : OneLine s) : OneLine ("`" ++ s ++ "`") := by
  rw [oneLine_append, oneLine_append]
  exact ⟨⟨by decide, h⟩, by decide⟩

/-- The row of an endpoint is harmless unless its path opens a fence between its first and its last
line. -/
theorem harmless_pathRow_iff {method : String} (h : OneLine method) (path description : String) :
    Harmless (row [method, "`" ++ path ++ "`", cell description]) ↔
      ∀ l ∈ ((pieces (· == '\n') path).drop 1).dropLast, opensFence l = false := by
  have hrow : row [method, "`" ++ path ++ "`", cell description] =
      "| " ++ method ++ " | `" ++ path ++ ("` | " ++ cell description ++ " |") := by
    rw [row, String.intercalate_cons_cons, String.intercalate_cons_cons,
      String.intercalate_singleton]
    simp only [String.append_assoc]
    rfl
  have hbefore : ("| " ++ method ++ " | `").toList.head? = some '|' := by
    rw [String.toList_append, String.toList_append]
    rfl
  have hafter : ("` | " ++ cell description ++ " |").toList.getLast? = some '|' := by
    rw [String.toList_append, List.getLast?_append]
    rfl
  rw [hrow]
  refine harmless_between_iff hbefore hafter ?_ ?_ path
  · rw [oneLine_append, oneLine_append]
    exact ⟨⟨by decide, h⟩, by decide⟩
  · rw [oneLine_append, oneLine_append]
    exact ⟨⟨by decide, oneLine_cell description⟩, by decide⟩

/-! ### The chart in the document -/

namespace WorkflowSpec

variable {w : WorkflowSpec}

variable (w) in
/-- The parts of the document before the fence. -/
def documentHead : List String :=
  ["# " ++ trim w.name, ""] ++
    (if hasInk w.description then [trim w.description, ""] else []) ++
    ["**Pattern:** " ++ w.pattern.name] ++
    (if w.pattern == .hybrid then
      ["", "**Composed from:** " ++ " + ".intercalate (w.basePatterns.map (·.name))]
    else []) ++
    ["", "## Flow", ""]

variable (w) in
/-- The parts of the document after the fence. -/
def documentTail : List String :=
  tableSection "Nodes" ["Node", "Type", "Description"]
      (w.nodes.map fun n => [n.name, n.kind.name, cell n.description]) ++
    (if w.utilities.isEmpty then []
    else
      tableSection "Utilities" ["Function", "Parameters", "Returns", "Description"]
        (w.utilities.map fun u =>
          ["`" ++ u.name ++ "`", cell (commas u.parameterItems), cell u.returnType,
            cell u.description])) ++
    (if w.sharedStore.isEmpty then []
    else
      tableSection "Shared Store" ["Key", "Type"]
        (w.sharedStore.entries.map fun (k, t) => ["`" ++ k ++ "`", cell t])) ++
    if w.fastApi then
      tableSection "API Endpoints" ["Method", "Path", "Description"]
        (w.servedEndpoints.map fun e =>
          [Text.upper e.method, "`" ++ e.path ++ "`", cell e.description])
    else []

theorem designDocument_eq : w.designDocument =
    unlines (w.documentHead ++ fenceStart :: w.flowchart :: fenceEnd :: w.documentTail) := by
  simp [designDocument, documentHead, documentTail, fenceStart, fenceEnd]

theorem Valid.partLines_flowchart (h : w.Valid) : partLines w.flowchart = w.flowchartLines := by
  have hne : w.flowchartLines ≠ [] := flowchartLines_eq ▸ List.cons_ne_nil _ w.bodyLines
  rw [partLines, flowchart, closedLines_intercalate hne h.oneLine_flowchartLines, List.map_map]
  exact (List.map_congr_left fun s _ => String.ofList_toList).trans (List.map_id _)

/-- The lines of the document: the fenced chart between the lines of the other parts. -/
theorem Valid.lines_designDocument (h : w.Valid) :
    lines w.designDocument = w.documentHead.flatMap partLines ++
      fenceStart :: (w.flowchartLines ++ fenceEnd :: w.documentTail.flatMap partLines) := by
  have hstart : partLines fenceStart = [fenceStart] := partLines_of_oneLine (by decide)
  have hend : partLines fenceEnd = [fenceEnd] := partLines_of_oneLine (by decide)
  rw [designDocument_eq, lines_unlines_eq, List.flatMap_append, List.flatMap_cons,
    List.flatMap_cons, List.flatMap_cons, hstart, hend, h.partLines_flowchart]
  rfl

theorem Valid.no_backquote (h : w.Valid) : ∀ l ∈ w.flowchartLines, '\x60' ∉ l.toList := by
  have hname : ∀ {s : String}, IsNodeName s → '\x60' ∉ s.toList := fun hs hc =>
    absurd (hs.nameChar _ hc) (by decide)
  rw [flowchartLines_eq, List.forall_mem_cons]
  refine ⟨by decide, forall_bodyLines (fun n hn => ?_) (fun p => ?_) (by decide) (by decide)
    (fun e he => ?_) (fun name hn => ?_)⟩
  · have hn := hname (h.nodeNames n hn)
    have hkind : '\x60' ∉ n.kind.name.toList := by cases n.kind <;> decide
    obtain ⟨k, hk⟩ := toList_declarationLine n
    rw [hk, toList_declaration]
    simp [hn, hkind]
  · cases p <;> decide
  · have hv := h.resolvedEdge he
    have hs := hname (h.isNodeName hv.source)
    have ht := hname (h.isNodeName hv.target)
    have ha : '\x60' ∉ e.action.toList := fun hc =>
      absurd ((labelChar_of_isActionLabel hv.action).2 _ hc) (by decide)
    simp [EdgeSpec.line, hs, ht, ha]
  · have hn := hname (h.isNodeName hn)
    simp [errorLine, hn, errorAction, errorHandler]

/-- **The chart is the only diagram of the document exactly if no other part opens a fence.** -/
theorem Valid.ofDocument_iff (h : w.Valid) :
    (∃ line, Diagrams.ofDocument w.designDocument = ⟨[⟨line, w.flowchart⟩], none⟩) ↔
      (∀ part ∈ w.documentHead, Harmless part) ∧ ∀ part ∈ w.documentTail, Harmless part := by
  have hparts : ∀ parts : List String, (∀ l ∈ parts.flatMap partLines, opensFence l = false) ↔
      ∀ part ∈ parts, Harmless part := by
    intro parts
    simp only [List.forall_mem_flatMap, harmless_iff]
  rw [← hparts, ← hparts, ← scan_fenced_iff h.no_backquote, Diagrams.ofDocument,
    h.lines_designDocument]
  rfl

/-! ### Free texts -/

variable (w) in
/-- No free text of the document opens a fence: neither the name after its first line, nor the
description, nor the path of an endpoint between its first and its last line. -/
structure NoStrayFence : Prop where
  name : ∀ l ∈ (pieces (· == '\n') (trim w.name)).drop 1, opensFence l = false
  description : ∀ l ∈ pieces (· == '\n') (trim w.description), opensFence l = false
  paths : w.fastApi = true → ∀ e ∈ w.endpoints,
    ∀ l ∈ ((pieces (· == '\n') e.path).drop 1).dropLast, opensFence l = false

theorem oneLine_patternName (p : Pattern) : OneLine p.name := by
  cases p <;> decide

/-- The description is left out where it is blank. -/
theorem harmless_description_iff :
    (∀ part ∈ if hasInk w.description then [trim w.description, ""] else [], Harmless part) ↔
      Harmless (trim w.description) := by
  have hempty : Harmless "" := by decide
  split
  · rw [List.forall_mem_cons, List.forall_mem_singleton, and_iff_left hempty]
  · next hink =>
    have htrim : trim w.description = "" := (trim_eq_empty_iff _).mpr (by simpa using hink)
    exact iff_of_true (List.forall_mem_nil _) (htrim ▸ hempty)

/-- The patterns that a workflow is composed from are written on one line. -/
theorem harmless_bases : ∀ part ∈ (if w.pattern == .hybrid then
    ["", "**Composed from:** " ++ " + ".intercalate (w.basePatterns.map (·.name))] else []),
    Harmless part := by
  have hone : OneLine (" + ".intercalate (w.basePatterns.map (·.name))) :=
    oneLine_intercalate (by decide) (List.forall_mem_map.mpr fun p _ => oneLine_patternName p)
  split
  · rw [List.forall_mem_cons, List.forall_mem_singleton]
    refine ⟨by decide, ?_⟩
    exact harmless_append (by decide : "**Composed from:** ".toList.head? = some '*') (by decide)
      hone (by decide) (by decide)
  · exact List.forall_mem_nil _

/-- The parts before the fence are harmless exactly if the name and the description are. -/
theorem harmless_documentHead_iff :
    (∀ part ∈ w.documentHead, Harmless part) ↔
      (∀ l ∈ (pieces (· == '\n') (trim w.name)).drop 1, opensFence l = false) ∧
        ∀ l ∈ pieces (· == '\n') (trim w.description), opensFence l = false := by
  have htitle : Harmless ("# " ++ trim w.name) ↔
      ∀ l ∈ (pieces (· == '\n') (trim w.name)).drop 1, opensFence l = false :=
    harmless_title_iff (by decide : "# ".toList.head? = some '#') (by decide) (by decide)
      (by decide) _
  have hempty : Harmless "" := by decide
  have hpattern : Harmless ("**Pattern:** " ++ w.pattern.name) := by
    cases w.pattern <;> decide
  have hrest : ∀ part ∈ ["", "## Flow", ""], Harmless part := by decide
  rw [documentHead, List.forall_mem_append, List.forall_mem_append, List.forall_mem_append,
    List.forall_mem_append, harmless_description_iff, List.forall_mem_cons,
    List.forall_mem_singleton, List.forall_mem_singleton, htitle]
  constructor
  · rintro ⟨⟨⟨⟨⟨hname, -⟩, hdesc⟩, -⟩, -⟩, -⟩
    exact ⟨hname, hdesc⟩
  · rintro ⟨hname, hdesc⟩
    exact ⟨⟨⟨⟨⟨hname, hempty⟩, hdesc⟩, hpattern⟩, harmless_bases⟩, hrest⟩

theorem Valid.oneLine_method (h : w.Valid) {e : EndpointSpec} (he : e ∈ w.servedEndpoints) :
    OneLine (Text.upper e.method) := by
  rw [servedEndpoints] at he
  split at he
  · rw [List.mem_singleton.mp he]
    exact (by decide : OneLine (Text.upper "POST"))
  · have hall : ∀ m ∈ httpMethods, OneLine m := by decide
    exact hall _ (h.endpoints e he).method

/-- The table of the endpoints is harmless exactly if their paths are. -/
theorem Valid.harmless_endpointTable_iff (h : w.Valid) :
    (∀ part ∈ tableSection "API Endpoints" ["Method", "Path", "Description"]
        (w.servedEndpoints.map fun e =>
          [Text.upper e.method, "`" ++ e.path ++ "`", cell e.description]), Harmless part) ↔
      ∀ e ∈ w.endpoints,
        ∀ l ∈ ((pieces (· == '\n') e.path).drop 1).dropLast, opensFence l = false := by
  have hrows : (∀ e ∈ w.servedEndpoints,
      Harmless (row [Text.upper e.method, "`" ++ e.path ++ "`", cell e.description])) ↔
      ∀ e ∈ w.servedEndpoints,
        ∀ l ∈ ((pieces (· == '\n') e.path).drop 1).dropLast, opensFence l = false :=
    forall₂_congr fun e he => harmless_pathRow_iff (h.oneLine_method he) e.path e.description
  rw [harmless_tableSection_iff (by decide) (by decide), List.forall_mem_map, hrows,
    servedEndpoints]
  split
  · -- Without endpoints of its own a workflow serves one path, which is on one line.
    next hnone =>
    have hrun : ∀ l ∈ ((pieces (· == '\n') "/run").drop 1).dropLast, opensFence l = false := by
      decide
    rw [List.isEmpty_iff] at hnone
    rw [List.forall_mem_singleton, hnone]
    exact iff_of_true hrun (List.forall_mem_nil _)
  · exact Iff.rfl

/-- The parts after the fence are harmless exactly if the paths of the endpoints are. -/
theorem Valid.harmless_documentTail_iff (h : w.Valid) :
    (∀ part ∈ w.documentTail, Harmless part) ↔ (w.fastApi = true → ∀ e ∈ w.endpoints,
      ∀ l ∈ ((pieces (· == '\n') e.path).drop 1).dropLast, opensFence l = false) := by
  have hnodes : ∀ r ∈ w.nodes.map fun n => [n.name, n.kind.name, cell n.description],
      ∀ s ∈ r, OneLine s := by
    rw [List.forall_mem_map]
    intro n hn
    simp [(h.nodeNames n hn).oneLine, oneLine_kindName, oneLine_cell]
  have hutilities : ∀ r ∈ w.utilities.map fun u => ["`" ++ u.name ++ "`",
      cell (commas u.parameterItems), cell u.returnType, cell u.description],
      ∀ s ∈ r, OneLine s := by
    rw [List.forall_mem_map]
    intro u hu
    have hname := oneLine_code (oneLine_of_isFunctionName (h.utilities u hu).name)
    simp [hname, oneLine_cell]
  have hstore : ∀ r ∈ w.sharedStore.entries.map fun (k, t) => ["`" ++ k ++ "`", cell t],
      ∀ s ∈ r, OneLine s := by
    rw [List.forall_mem_map]
    intro (k, t) hkt
    have hk := h.keys k (List.mem_map.mpr ⟨_, hkt, rfl⟩)
    have hkey := oneLine_code (oneLine_of_isFunctionName hk)
    simp [hkey, oneLine_cell]
  rw [documentTail, List.forall_mem_append, List.forall_mem_append, List.forall_mem_append,
    and_iff_right ⟨⟨harmless_tableSection (by decide) (by decide) hnodes,
      harmless_unless (harmless_tableSection (by decide) (by decide) hutilities)⟩,
      harmless_unless (harmless_tableSection (by decide) (by decide) hstore)⟩]
  split
  · next hapi => rw [h.harmless_endpointTable_iff, forall_prop_of_true hapi]
  · next hapi => exact iff_of_true (List.forall_mem_nil _) fun h => absurd h hapi

/-- Nothing is wrong with a document exactly if its diagrams are closed and nothing is wrong with
them. -/
theorem issues_of_ofDocument {content : String} {d : Diagram}
    (h : Diagrams.ofDocument content = ⟨[d], none⟩) :
    (Validation.ofDocument content).issues = d.check.map (⟨1, ·⟩) := by
  rw [Validation.ofDocument, h]
  simp [checkAll]

/-- **The chart is the only diagram of the design document, and nothing is wrong with it, exactly if
no free text opens a fence and no name of a node starts with the word for groups.** -/
theorem designDocument_iff (h : w.validate = .ok ()) :
    ((∃ line, Diagrams.ofDocument w.designDocument = ⟨[⟨line, w.flowchart⟩], none⟩) ∧
        (Validation.ofDocument w.designDocument).issues = []) ↔
      w.NoStrayFence ∧ w.NoGroupNames := by
  have hv := validate_eq_ok_iff.mp h
  have hfence : (∃ line, Diagrams.ofDocument w.designDocument = ⟨[⟨line, w.flowchart⟩], none⟩) ↔
      w.NoStrayFence := by
    rw [hv.ofDocument_iff, harmless_documentHead_iff, hv.harmless_documentTail_iff]
    exact ⟨fun ⟨⟨hn, hd⟩, hp⟩ => ⟨hn, hd, hp⟩, fun hs => ⟨⟨hs.name, hs.description⟩, hs.paths⟩⟩
  rw [← hfence]
  refine and_congr_right ?_
  rintro ⟨line, hdoc⟩
  rw [issues_of_ofDocument hdoc, List.map_eq_nil_iff]
  exact hv.check_flowchart_iff line

/-- A valid specification with a description that opens a fence. -/
def fencedLoop : WorkflowSpec :=
  { reviewLoop with description := "Drafts a text.\n```mermaid\nUntil it is good." }

/-- A valid specification with a node whose lines are taken for groups. -/
def groupedLoop : WorkflowSpec where
  name := "review loop"
  pattern := .agent
  nodes := [.of "subgraphRunner" .node "Writes a draft", .of "Publish" .node "Sends it"]

theorem designDocument_reviewLoop :
    (reviewLoop.validate = .ok () ∧
      (∃ line, Diagrams.ofDocument reviewLoop.designDocument =
        ⟨[⟨line, reviewLoop.flowchart⟩], none⟩) ∧
      (Validation.ofDocument reviewLoop.designDocument).issues = []) ∧
    (fencedLoop.validate = .ok () ∧
      ¬ ((∃ line, Diagrams.ofDocument fencedLoop.designDocument =
          ⟨[⟨line, fencedLoop.flowchart⟩], none⟩) ∧
        (Validation.ofDocument fencedLoop.designDocument).issues = [])) ∧
    (groupedLoop.validate = .ok () ∧
      ¬ ((∃ line, Diagrams.ofDocument groupedLoop.designDocument =
          ⟨[⟨line, groupedLoop.flowchart⟩], none⟩) ∧
        (Validation.ofDocument groupedLoop.designDocument).issues = [])) := by
  refine ⟨⟨rfl, (designDocument_iff rfl).mpr ⟨⟨by decide, by decide, nofun⟩, by decide⟩⟩,
    ⟨rfl, fun h => ?_⟩, ⟨rfl, fun h => ?_⟩⟩
  · have hstray := ((designDocument_iff rfl).mp h).1.description "```mermaid"
    exact absurd (hstray (by decide)) (by decide)
  · exact absurd ((designDocument_iff rfl).mp h).2 (by decide)

end WorkflowSpec

end AgentFlow
