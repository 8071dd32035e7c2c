import AgentFlow.Flowchart.Check
import AgentFlow.Proofs.Flowchart.Drawing

/-!
# Checking a drawn workflow

The check of a diagram looks at its brackets and quotes, at its groups and arrows, and at the names
that its arrows use.  This file goes through these for the chart of a valid specification.

* `Balanced.unbalancedFrom_eq`, `Balanced.count_quotes`: brackets that match and quotes in pairs.
* `Passes`, `countP_groups`: lines that leave the open groups as they are, and groups that are
  opened as often as closed.
* `Valid.check_flowchart_iff`: **nothing is wrong with the chart exactly if no name of a node
  starts with the word for groups.**
-/

namespace AgentFlow.Flowchart

open Text

/-! ### Brackets and quotes -/

/-- The character is neither a bracket nor a quote. -/
def isUnmarked (c : Char) : Bool := c != '"' && !opens c && (opener? c).isNone

/-- Texts with matching brackets and with quotes in pairs, where brackets between quotes do not
count. -/
inductive Balanced : List Char → Prop
  | nil : Balanced []
  | char {c : Char} {cs : List Char} : isUnmarked c = true → Balanced cs → Balanced (c :: cs)
  | quote {inner cs : List Char} : '"' ∉ inner → Balanced cs →
      Balanced ('"' :: (inner ++ '"' :: cs))
  | bracket {o c : Char} {inner cs : List Char} : opens o = true → opener? c = some o →
      Balanced inner → Balanced cs → Balanced (o :: (inner ++ c :: cs))

theorem Balanced.append {as bs : List Char} (ha : Balanced as) (hb : Balanced bs) :
    Balanced (as ++ bs) := by
  induction ha with
  | nil => exact hb
  | char hc _ ih => exact .char hc ih
  | quote hinner _ ih =>
    rw [List.cons_append, List.append_assoc, List.cons_append]
    exact .quote hinner ih
  | bracket ho hc hinner _ _ ih =>
    rw [List.cons_append, List.append_assoc, List.cons_append]
    exact .bracket ho hc hinner ih

theorem balanced_of_unmarked {cs : List Char} (h : ∀ c ∈ cs, isUnmarked c = true) :
    Balanced cs := by
  induction cs with
  | nil => exact .nil
  | cons c rest ih =>
    rw [List.forall_mem_cons] at h
    exact .char h.1 (ih h.2)

theorem balanced_intercalate {ls : List String} (h : ∀ l ∈ ls, Balanced l.toList) :
    Balanced ("\n".intercalate ls).toList := by
  induction ls with
  | nil => rw [String.intercalate_nil]; exact .nil
  | cons l rest ih =>
    rw [List.forall_mem_cons] at h
    cases rest with
    | nil => rw [String.intercalate_singleton]; exact h.1
    | cons l' more =>
      rw [String.intercalate_cons_cons, String.toList_append, String.toList_append]
      exact (h.1.append (balanced_of_unmarked (by decide))).append (ih h.2)

theorem unbalancedFrom_quoted {inner : List Char} (h : '"' ∉ inner) (stack rest : List Char) :
    unbalancedFrom true stack (inner ++ '"' :: rest) = unbalancedFrom false stack rest := by
  induction inner with
  | nil => rw [List.nil_append, unbalancedFrom, if_pos (by decide)]; rfl
  | cons c inner ih =>
    rw [List.mem_cons, not_or] at h
    have hc : (c == '"') = false := beq_false_of_ne (Ne.symm h.1)
    rw [List.cons_append, unbalancedFrom, hc, if_neg Bool.false_ne_true, if_pos rfl, ih h.2]

theorem ne_quote_of_opener {c o : Char} (h : opener? c = some o) :
    (c == '"') = false ∧ opens c = false := by
  unfold opener? at h
  split at h
  · next hc => rw [beq_iff_eq.mp hc]; decide
  · split at h
    · next hc => rw [beq_iff_eq.mp hc]; decide
    · split at h
      · next hc => rw [beq_iff_eq.mp hc]; decide
      · exact absurd h nofun

theorem ne_quote_of_opens {o : Char} (h : opens o = true) : (o == '"') = false := by
  refine beq_false_of_ne ?_
  rintro rfl
  exact absurd h (by decide)

/-- **A balanced text leaves the open brackets as they are.** -/
theorem Balanced.unbalancedFrom_eq {cs : List Char} (h : Balanced cs) (stack rest : List Char) :
    unbalancedFrom false stack (cs ++ rest) = unbalancedFrom false stack rest := by
  induction h generalizing stack rest with
  | nil => rfl
  | char hc _ ih =>
    rw [isUnmarked, Bool.and_eq_true, Bool.and_eq_true, bne_iff_ne, Bool.not_eq_true',
      Option.isNone_iff_eq_none] at hc
    rw [List.cons_append, unbalancedFrom, beq_false_of_ne hc.1.1, if_neg Bool.false_ne_true,
      if_neg Bool.false_ne_true, hc.1.2, if_neg Bool.false_ne_true, hc.2]
    exact ih stack rest
  | quote hinner _ ih =>
    rw [List.cons_append, List.append_assoc, List.cons_append, unbalancedFrom, if_pos (by decide)]
    rw [Bool.not_false, unbalancedFrom_quoted hinner, ih]
  | bracket ho hc _ _ ihinner ih =>
    rw [List.cons_append, List.append_assoc, List.cons_append, unbalancedFrom,
      ne_quote_of_opens ho, if_neg Bool.false_ne_true, if_neg Bool.false_ne_true, if_pos ho,
      ihinner, unbalancedFrom, (ne_quote_of_opener hc).1, if_neg Bool.false_ne_true,
      if_neg Bool.false_ne_true, (ne_quote_of_opener hc).2, if_neg Bool.false_ne_true, hc]
    simp only [List.head?_cons, beq_self_eq_true, if_true, List.drop_succ_cons, List.drop_zero]
    exact ih stack rest

theorem Balanced.unbalanced?_eq {s : String} (h : Balanced s.toList) : unbalanced? s = none := by
  have := h.unbalancedFrom_eq [] []
  rw [List.append_nil] at this
  rw [unbalanced?, this]
  rfl

/-- **The quotes of a balanced text stand in pairs.** -/
theorem Balanced.count_quotes {cs : List Char} (h : Balanced cs) : cs.count '"' % 2 = 0 := by
  induction h with
  | nil => rfl
  | char hc _ ih =>
    rw [isUnmarked, Bool.and_eq_true, Bool.and_eq_true, bne_iff_ne] at hc
    rw [List.count_cons_of_ne hc.1.1, ih]
  | quote hinner _ ih =>
    rw [List.count_cons_self, List.count_append, List.count_cons_self,
      List.count_eq_zero_of_not_mem hinner]
    omega
  | bracket ho hc _ _ ihinner ih =>
    have ho := ne_of_beq_false (ne_quote_of_opens ho)
    have hc := ne_of_beq_false (ne_quote_of_opener hc).1
    rw [List.count_cons_of_ne ho, List.count_append, List.count_cons_of_ne hc]
    omega

/-! ### Groups -/

def opensGroup (raw : List Char) : Bool := "subgraph".toList.isPrefixOf (trimmed raw)

def closesGroup (raw : List Char) : Bool := trimmed raw == "end".toList

/-- Whether a line has an arrow without a node at both ends. -/
def isBroken (raw : List Char) : Bool :=
  (splitStroke? (trimmed raw)).isSome && !joinsNodes (trimmed raw)

/-- What a line does to the check. -/
theorem checkChartLines_cons (start n depth : Nat) (raw : List Char) (rest : List (List Char)) :
    checkChartLines start n depth (raw :: rest) =
      if opensGroup raw then checkChartLines start (n + 1) (depth + 1) rest
      else if closesGroup raw then
        if depth == 0 then
          ⟨n, .unmatchedSubgraph, "'end' without a matching subgraph"⟩ ::
            checkChartLines start (n + 1) 0 rest
        else checkChartLines start (n + 1) (depth - 1) rest
      else if isBroken raw then
        ⟨n, .invalidArrow, "Edge needs a source and a target: '" ++
            String.ofList (trimmed raw) ++ "'"⟩ ::
          checkChartLines start (n + 1) depth rest
      else checkChartLines start (n + 1) depth rest := rfl

theorem closesGroup_of_opensGroup {raw : List Char} (h : opensGroup raw = true) :
    closesGroup raw = false := by
  refine beq_false_of_ne fun he => ?_
  rw [opensGroup, he] at h
  exact absurd h (by decide)

/-- **A chart that passes opens as many groups as it closes.** -/
theorem countP_groups {start n depth : Nat} {ls : List (List Char)}
    (h : checkChartLines start n depth ls = []) :
    depth + ls.countP opensGroup = ls.countP closesGroup := by
  induction ls generalizing n depth with
  | nil =>
    rw [checkChartLines] at h
    split at h
    · next hd => rw [beq_iff_eq.mp hd]; rfl
    · exact absurd h (List.cons_ne_nil _ _)
  | cons raw rest ih =>
    rw [checkChartLines_cons] at h
    split at h
    · next ho =>
      have hclose := closesGroup_of_opensGroup ho
      have := ih h
      rw [List.countP_cons_of_pos ho, List.countP_cons_of_neg (by rw [hclose]; nofun)]
      omega
    · next ho =>
      rw [List.countP_cons_of_neg ho]
      split at h
      · next hc =>
        rw [List.countP_cons_of_pos hc]
        split at h
        · exact absurd h (List.cons_ne_nil _ _)
        · next hd =>
          have := ih h
          have : depth ≠ 0 := fun he => hd (beq_iff_eq.mpr he)
          omega
      · next hc =>
        rw [List.countP_cons_of_neg hc]
        split at h
        · exact absurd h (List.cons_ne_nil _ _)
        · exact ih h

/-- The lines leave the open groups as they are, and nothing is wrong with them. -/
def Passes (ls : List (List Char)) : Prop :=
  ∀ start n depth rest, checkChartLines start n depth (ls ++ rest) =
    checkChartLines start (n + ls.length) depth rest

theorem passes_nil : Passes [] := fun _ _ _ _ => rfl

theorem Passes.append {as bs : List (List Char)} (ha : Passes as) (hb : Passes bs) :
    Passes (as ++ bs) := by
  intro start n depth rest
  rw [List.append_assoc, ha, hb, List.length_append, Nat.add_assoc]

theorem passes_of_forall {ls : List (List Char)} (h : ∀ l ∈ ls, Passes [l]) : Passes ls := by
  induction ls with
  | nil => exact passes_nil
  | cons l rest ih =>
    rw [List.forall_mem_cons] at h
    exact h.1.append (ih h.2)

theorem passes_flatMap {α : Type} {items : List α} {f : α → List (List Char)}
    (h : ∀ x ∈ items, Passes (f x)) : Passes (items.flatMap f) := by
  induction items with
  | nil => exact passes_nil
  | cons x rest ih =>
    rw [List.forall_mem_cons] at h
    rw [List.flatMap_cons]
    exact h.1.append (ih h.2)

/-- A line that is for no group passes, unless it has an arrow without both ends. -/
theorem passes_line {raw : List Char} (ho : opensGroup raw = false) (hc : closesGroup raw = false)
    (hb : isBroken raw = false) : Passes [raw] := by
  intro start n depth rest
  rw [List.singleton_append, checkChartLines_cons, ho, hc, hb]
  rfl

/-- A group passes if its lines do. -/
theorem passes_group {first last : List Char} (hfirst : opensGroup first = true)
    (hlast : closesGroup last = true) {ls : List (List Char)} (h : Passes ls) :
    Passes (first :: (ls ++ [last])) := by
  intro start n depth rest
  have hend : opensGroup last = false := by
    cases ho : opensGroup last with
    | false => rfl
    | true => exact absurd hlast (by rw [closesGroup_of_opensGroup ho]; nofun)
  have hn : n + 1 + ls.length + 1 = n + (first :: (ls ++ [last])).length := by
    rw [List.length_cons, List.length_append, List.length_singleton]
    omega
  rw [List.cons_append, List.append_assoc, checkChartLines_cons, hfirst, if_pos rfl, h,
    List.singleton_append, checkChartLines_cons, hend, hlast, hn]
  rfl

/-! ### Declared nodes -/

/-- No end of an arrow is missing if all of them are declared. -/
theorem undeclared_eq_nil {start : Nat} {g : Graph}
    (h : ∀ a ∈ g.arrows, a.source ∈ g.nodes ∧ a.target ∈ g.nodes) : undeclared start g = [] := by
  rw [undeclared, List.filterMap_eq_nil_iff]
  intro s hs
  obtain ⟨a, ha, hsa⟩ := List.mem_flatMap.mp hs
  have hmem : s ∈ g.nodes := by
    rcases List.mem_cons.mp hsa with rfl | hsa
    · exact (h a ha).1
    · rw [List.mem_singleton.mp hsa]; exact (h a ha).2
  rw [if_neg (by simp [hmem])]

end AgentFlow.Flowchart

namespace AgentFlow

open Text Flowchart

/-! ### The lines of a drawn workflow -/

theorem isUnmarked_of_isLabelChar {c : Char} (h : isLabelChar c = true) : isUnmarked c = true := by
  have hne : ∀ d, isLabelChar d = false → (c == d) = false := fun d hd =>
    beq_false_of_ne (ne_of_isLabelChar h hd)
  rw [isUnmarked, bne, hne '"' (by decide), opens, hne '[' (by decide), hne '(' (by decide),
    hne '\x7b' (by decide), opener?, hne ']' (by decide), hne ')' (by decide),
    hne '\x7d' (by decide)]
  rfl

theorem isUnmarked_of_isNameChar {c : Char} (h : isNameChar c = true) : isUnmarked c = true :=
  isUnmarked_of_isLabelChar (isLabelChar_of_isNameChar h)

theorem isUnmarked_of_mem_replicate {n : Nat} {c : Char} (h : c ∈ List.replicate n ' ') :
    isUnmarked c = true := by
  rw [List.eq_of_mem_replicate h]
  decide

theorem balanced_declarationLine {n : NodeSpec} (h : IsNodeName n.name) :
    Balanced n.declarationLine.toList := by
  obtain ⟨k, hk⟩ := toList_declarationLine n
  have hname : ∀ c ∈ n.name.toList, isUnmarked c = true := fun c hc =>
    isUnmarked_of_isNameChar (h.nameChar c hc)
  have hquote : '"' ∉ n.name.toList ++ (" (".toList ++ (n.kind.name.toList ++ ")".toList)) := by
    simp only [List.mem_append, not_or]
    refine ⟨fun hc => ?_, by decide, ?_, by decide⟩
    · exact absurd (h.nameChar _ hc) (by decide)
    · cases n.kind <;> decide
  have hbracket : Balanced ('[' :: '"' :: ((n.name.toList ++ (" (".toList ++
      (n.kind.name.toList ++ ")".toList))) ++ '"' :: []) ++ ']' :: []) :=
    .bracket rfl rfl (.quote hquote .nil) .nil
  have hchars : n.declaration.toList = n.name.toList ++ ('[' :: '"' :: ((n.name.toList ++
      (" (".toList ++ (n.kind.name.toList ++ ")".toList))) ++ '"' :: []) ++ ']' :: []) := by
    simp [NodeSpec.declaration]
  rw [hk, hchars]
  exact (balanced_of_unmarked fun _ => isUnmarked_of_mem_replicate).append
    ((balanced_of_unmarked hname).append hbracket)

theorem balanced_groupTitle (p : Pattern) : Balanced (groupTitle p).toList := by
  have hstart : ∀ c ∈ ("    subgraph " ++ Text.lower p.name ++ "_nodes").toList,
      isUnmarked c = true := by
    cases p <;> decide
  have hquote : '"' ∉ p.name.toList := by
    cases p <;> decide
  have hbracket : Balanced ('[' :: '"' :: (p.name.toList ++ '"' :: []) ++ ']' :: []) :=
    .bracket rfl rfl (.quote hquote .nil) .nil
  have hchars : (groupTitle p).toList = ("    subgraph " ++ Text.lower p.name ++ "_nodes").toList ++
      ('[' :: '"' :: (p.name.toList ++ '"' :: []) ++ ']' :: []) := by
    simp [groupTitle_eq]
  rw [hchars]
  exact (balanced_of_unmarked hstart).append hbracket

theorem balanced_handlerLine : Balanced handlerLine.toList := by
  have hbracket : Balanced ('(' :: ('[' :: ('"' :: (errorHandler.toList ++ '"' :: []) ++
      ']' :: []) ++ ')' :: [])) :=
    .bracket rfl rfl (.bracket rfl rfl (.quote (by decide) .nil) .nil) .nil
  have hchars : handlerLine.toList = "    error_handler".toList ++ ('(' :: ('[' :: ('"' ::
      (errorHandler.toList ++ '"' :: []) ++ ']' :: []) ++ ')' :: [])) := by
    decide
  rw [hchars]
  exact (balanced_of_unmarked (by decide)).append hbracket

section

variable {source target label : String} {stroke : List Char}

theorem IsArrow.balanced (h : IsArrow source stroke label target)
    (hstroke : ∀ c ∈ stroke, isUnmarked c = true) :
    Balanced (List.replicate 4 ' ' ++ arrowChars source stroke label target) := by
  refine balanced_of_unmarked ?_
  simp only [arrowText, List.forall_mem_append, List.forall_mem_cons]
  exact ⟨fun _ => isUnmarked_of_mem_replicate,
    fun c hc => isUnmarked_of_isNameChar (h.source.nameChar c hc), by decide, hstroke, by decide,
    fun c hc => isUnmarked_of_isLabelChar (h.label.labelChar c hc), by decide, by decide,
    fun c hc => isUnmarked_of_isNameChar (h.target.nameChar c hc)⟩

theorem IsArrow.opensGroup_eq (h : IsArrow source stroke label target) :
    opensGroup (List.replicate 4 ' ' ++ arrowChars source stroke label target) =
      startsWith source "subgraph" := by
  rw [opensGroup, h.trimmed_eq]
  exact isPrefixOf_name (by decide) (by decide) _

theorem IsArrow.closesGroup_eq (h : IsArrow source stroke label target) :
    closesGroup (List.replicate 4 ' ' ++ arrowChars source stroke label target) = false := by
  rw [closesGroup, h.trimmed_eq]
  exact ne_end_of_name (by decide)

theorem IsArrow.isBroken_eq (h : IsArrow source stroke label target) :
    isBroken (List.replicate 4 ' ' ++ arrowChars source stroke label target) = false := by
  have hword := isWord_of_isNodeName h.source
  have hjoins : joinsNodes (arrowChars source stroke label target) = true := by
    rw [joinsNodes, splitArrow?_arrowText hword h.stroke h.label h.target]
    simp only [nodeName_self hword, nodeName_self h.target, Bool.and_eq_true, Bool.not_eq_true',
      List.isEmpty_eq_false_iff]
    exact ⟨hword.ne_nil, h.target.ne_nil⟩
  rw [isBroken, h.trimmed_eq, hjoins]
  exact Bool.and_false _

end

theorem opensGroup_declarationLine {n : NodeSpec} (h : IsNodeName n.name) :
    opensGroup n.declarationLine.toList = startsWith n.name "subgraph" := by
  rw [opensGroup, trimmed_declarationLine h, toList_declaration, List.cons_append]
  exact isPrefixOf_name (by decide) (by decide) _

theorem closesGroup_declarationLine {n : NodeSpec} (h : IsNodeName n.name) :
    closesGroup n.declarationLine.toList = false := by
  rw [closesGroup, trimmed_declarationLine h, toList_declaration, List.cons_append]
  exact ne_end_of_name (by decide)

theorem isBroken_declarationLine {n : NodeSpec} (h : IsNodeName n.name) :
    isBroken n.declarationLine.toList = false := by
  rw [isBroken, trimmed_declarationLine h, splitStroke?_of_noStroke (noStroke_declaration h)]
  rfl

theorem opensGroup_groupTitle (p : Pattern) : opensGroup (groupTitle p).toList = true := by
  cases p <;> decide

theorem closesGroup_groupEnd : closesGroup groupEnd.toList = true := by decide

namespace WorkflowSpec

variable {w : WorkflowSpec}

theorem Valid.balanced_flowchart (h : w.Valid) : Balanced w.flowchart.toList := by
  refine balanced_intercalate ?_
  rw [flowchartLines_eq, List.forall_mem_cons]
  refine ⟨balanced_of_unmarked (by decide), forall_bodyLines
    (fun n hn => balanced_declarationLine (h.nodeNames n hn)) balanced_groupTitle
    (balanced_of_unmarked (by decide)) balanced_handlerLine (fun e he => ?_) (fun name hname => ?_)⟩
  · rw [toList_edgeLine]
    exact (h.isArrow_edge he).balanced (by decide)
  · rw [toList_errorLine]
    exact (isArrow_error (h.isNodeName hname)).balanced (by decide)

/-! ### Charts without names that look like groups -/

theorem passes_declarationLine {n : NodeSpec} (h : IsNodeName n.name)
    (hplain : startsWith n.name "subgraph" = false) : Passes [n.declarationLine.toList] :=
  passes_line ((opensGroup_declarationLine h).trans hplain) (closesGroup_declarationLine h)
    (isBroken_declarationLine h)

theorem Valid.passes_members (h : w.Valid) (hplain : w.NoGroupNames) (origin : Option Pattern) :
    Passes (((w.members origin).map (·.declarationLine)).map String.toList) := by
  refine passes_of_forall fun l hl => ?_
  rw [List.map_map] at hl
  obtain ⟨n, hn, rfl⟩ := List.mem_map.mp hl
  have hmem := (mem_members.mp hn).1
  exact passes_declarationLine (h.nodeNames n hmem)
    (hplain n.name (List.mem_map.mpr ⟨n, hmem, rfl⟩))

theorem Valid.passes_groupLines (h : w.Valid) (hplain : w.NoGroupNames) (p : Pattern) :
    Passes ((w.groupLines p).map String.toList) := by
  rw [groupLines_eq]
  split
  · exact passes_nil
  · rw [List.map_cons, List.map_append]
    exact passes_group (opensGroup_groupTitle p) closesGroup_groupEnd (h.passes_members hplain _)

/-- Nothing is wrong with the lines of a chart whose lines are not taken for groups. -/
theorem Valid.passes_bodyLines (h : w.Valid) (hplain : w.NoGroupNames) :
    Passes (w.bodyLines.map String.toList) := by
  have hnodes : Passes (w.nodeLines.map String.toList) := by
    rw [nodeLines_eq, List.map_append, List.map_flatMap]
    exact (h.passes_members hplain none).append
      (passes_flatMap fun p _ => h.passes_groupLines hplain p)
  have hhandler : Passes [handlerLine.toList] := passes_line (by decide) (by decide) (by decide)
  have hedges : Passes ((w.resolvedEdges.map (·.line)).map String.toList) := by
    refine passes_of_forall fun l hl => ?_
    rw [List.map_map] at hl
    obtain ⟨e, he, rfl⟩ := List.mem_map.mp hl
    have ha := h.isArrow_edge he
    rw [Function.comp_apply, toList_edgeLine]
    exact passes_line (ha.opensGroup_eq.trans (hplain _ (h.resolvedEdge he).source))
      ha.closesGroup_eq ha.isBroken_eq
  have herrors : Passes ((w.nodeNames.map errorLine).map String.toList) := by
    refine passes_of_forall fun l hl => ?_
    rw [List.map_map] at hl
    obtain ⟨name, hname, rfl⟩ := List.mem_map.mp hl
    have ha := isArrow_error (h.isNodeName hname)
    rw [Function.comp_apply, toList_errorLine]
    exact passes_line (ha.opensGroup_eq.trans (hplain _ hname)) ha.closesGroup_eq ha.isBroken_eq
  have hbody : w.bodyLines.map String.toList = w.nodeLines.map String.toList ++
      ([handlerLine.toList] ++ ((w.resolvedEdges.map (·.line)).map String.toList ++
        (w.nodeNames.map errorLine).map String.toList)) := by
    rw [bodyLines, List.map_append, List.map_cons, List.map_append, List.singleton_append]
  rw [hbody]
  exact hnodes.append (hhandler.append (hedges.append herrors))

/-! ### Charts with a name that looks like a group -/

/-- As many groups are opened as closed, or more. -/
def Covered (ls : List (List Char)) : Prop := ls.countP closesGroup ≤ ls.countP opensGroup

theorem Covered.append {as bs : List (List Char)} (ha : Covered as) (hb : Covered bs) :
    Covered (as ++ bs) := by
  rw [Covered] at ha hb ⊢
  rw [List.countP_append, List.countP_append]
  omega

theorem countP_closesGroup_eq_zero {ls : List (List Char)} (h : ∀ l ∈ ls, closesGroup l = false) :
    ls.countP closesGroup = 0 :=
  List.countP_eq_zero.mpr fun l hl => by rw [h l hl]; exact Bool.false_ne_true

theorem Valid.closesGroup_members (h : w.Valid) (origin : Option Pattern) :
    ∀ l ∈ ((w.members origin).map (·.declarationLine)).map String.toList,
      closesGroup l = false := by
  intro l hl
  rw [List.map_map] at hl
  obtain ⟨n, hn, rfl⟩ := List.mem_map.mp hl
  exact closesGroup_declarationLine (h.nodeNames n (mem_members.mp hn).1)

theorem Valid.covered_groupLines (h : w.Valid) (p : Pattern) :
    Covered ((w.groupLines p).map String.toList) := by
  rw [groupLines_eq, Covered]
  split
  · exact Nat.le_refl 0
  · rw [List.map_cons, List.map_append, List.map_singleton,
      List.countP_cons_of_pos (opensGroup_groupTitle p),
      List.countP_cons_of_neg (by rw [closesGroup_of_opensGroup (opensGroup_groupTitle p)]; nofun),
      List.countP_append, countP_closesGroup_eq_zero (h.closesGroup_members _),
      List.countP_singleton, closesGroup_groupEnd, if_pos rfl]
    omega

theorem Valid.covered_nodeLines (h : w.Valid) : Covered (w.nodeLines.map String.toList) := by
  have hgroups : ∀ ps : List Pattern,
      Covered (ps.flatMap fun p => (w.groupLines p).map String.toList) := by
    intro ps
    induction ps with
    | nil => exact Nat.le_refl 0
    | cons p rest ih => exact (h.covered_groupLines p).append ih
  have hmembers : Covered (((w.members none).map (·.declarationLine)).map String.toList) := by
    rw [Covered, countP_closesGroup_eq_zero (h.closesGroup_members none)]
    exact Nat.zero_le _
  rw [nodeLines_eq, List.map_append, List.map_flatMap]
  exact hmembers.append (hgroups Pattern.all)

/-- **A line that is taken for a group is never closed.** -/
theorem Valid.countP_groups_lt (h : w.Valid) {name : String} (hname : name ∈ w.nodeNames)
    (hgroup : startsWith name "subgraph" = true) :
    (w.bodyLines.map String.toList).countP closesGroup <
      (w.bodyLines.map String.toList).countP opensGroup := by
  have hnodes := h.covered_nodeLines
  have hends : ∀ l ∈ (handlerLine :: (w.resolvedEdges.map (·.line) ++
      w.nodeNames.map errorLine)).map String.toList, closesGroup l = false := by
    rw [List.map_cons, List.map_append, List.map_map, List.map_map, List.forall_mem_cons,
      List.forall_mem_append]
    refine ⟨by decide, fun l hl => ?_, fun l hl => ?_⟩
    · obtain ⟨e, he, rfl⟩ := List.mem_map.mp hl
      rw [Function.comp_apply, toList_edgeLine]
      exact (h.isArrow_edge he).closesGroup_eq
    · obtain ⟨n, hn, rfl⟩ := List.mem_map.mp hl
      rw [Function.comp_apply, toList_errorLine]
      exact (isArrow_error (h.isNodeName hn)).closesGroup_eq
  have hopens : 0 < ((handlerLine :: (w.resolvedEdges.map (·.line) ++
      w.nodeNames.map errorLine)).map String.toList).countP opensGroup := by
    refine List.countP_pos_iff.mpr ⟨(errorLine name).toList, List.mem_map.mpr ⟨errorLine name,
      List.mem_cons_of_mem _ (List.mem_append_right _ (List.mem_map.mpr ⟨name, hname, rfl⟩)), rfl⟩,
      ?_⟩
    rw [toList_errorLine, (isArrow_error (h.isNodeName hname)).opensGroup_eq, hgroup]
  rw [Covered] at hnodes
  rw [bodyLines, List.map_append, List.countP_append, List.countP_append,
    countP_closesGroup_eq_zero hends]
  omega

/-! ### The check of a chart -/

theorem Valid.undeclared_eq_nil (h : w.Valid) (hplain : w.NoGroupNames) (start : Nat) :
    undeclared start (Graph.read w.flowchart) = [] := by
  have hnode : ∀ {name}, name ∈ w.nodeNames → name ∈ (Graph.read w.flowchart).nodes :=
    fun hname => h.mem_read_nodes.mpr (.inl ⟨hname, hplain _ hname⟩)
  have hhandler : errorHandler ∈ (Graph.read w.flowchart).nodes := h.mem_read_nodes.mpr (.inr rfl)
  refine Flowchart.undeclared_eq_nil fun a ha => ?_
  rw [h.read_arrows] at ha
  rcases List.mem_append.mp (List.mem_filter.mp ha).1 with ha | ha
  · obtain ⟨e, he, rfl⟩ := List.mem_map.mp ha
    exact ⟨hnode (h.resolvedEdge he).source, hnode (h.resolvedEdge he).target⟩
  · obtain ⟨name, hname, rfl⟩ := List.mem_map.mp ha
    exact ⟨hnode hname, hhandler⟩

/-- Only the lines and the names can be wrong with the chart of a valid specification. -/
theorem Valid.check_flowchart (h : w.Valid) (line : Nat) :
    (Diagram.mk line w.flowchart).check =
      checkChartLines line line 0 (w.flowchartLines.map String.toList) ++
        undeclared line (Graph.read w.flowchart) := by
  have hheader : header? (lines w.flowchart) = some (0, "flowchart TD") := by
    rw [lines, h.linesOf_flowchart, flowchartLines_eq, List.map_cons, List.map_cons,
      String.ofList_toList, header?, if_pos (by decide)]
  have hwords : words "flowchart TD" = ["flowchart", "TD"] := by decide
  have hlower : Text.lower "flowchart" = "flowchart" := by decide
  have hupper : Text.upper "TD" = "TD" := by decide
  have hknown : (diagramTypes.any fun t =>
      "flowchart" == t || startsWith "flowchart" (t ++ "-")) = true := by decide
  have hdirection : directions.contains "TD" = true := by decide
  rw [Diagram.check, hheader]
  simp only [hwords, List.headD_cons, hlower, hknown, Bool.not_true, Bool.false_eq_true, if_false,
    h.balanced_flowchart.unbalanced?_eq, h.balanced_flowchart.count_quotes, beq_self_eq_true,
    if_true, List.nil_append, Bool.true_or, List.drop_succ_cons, List.drop_zero, hupper, hdirection,
    h.linesOf_flowchart]

/-- **Nothing is wrong with the chart of a valid specification exactly if no name of a node starts
with the word for groups.** -/
theorem Valid.check_flowchart_iff (h : w.Valid) (line : Nat) :
    (Diagram.mk line w.flowchart).check = [] ↔ w.NoGroupNames := by
  have hheader : opensGroup "flowchart TD".toList = false ∧
      closesGroup "flowchart TD".toList = false ∧ isBroken "flowchart TD".toList = false := by
    decide
  rw [h.check_flowchart, List.append_eq_nil_iff, flowchartLines_eq, List.map_cons]
  constructor
  · rintro ⟨hlines, -⟩ name hname
    cases hgroup : startsWith name "subgraph" with
    | false => rfl
    | true =>
      have hcount := countP_groups hlines
      have hlt := h.countP_groups_lt hname hgroup
      rw [List.countP_cons_of_neg (by rw [hheader.1]; nofun),
        List.countP_cons_of_neg (by rw [hheader.2.1]; nofun)] at hcount
      omega
  · intro hplain
    refine ⟨?_, h.undeclared_eq_nil hplain line⟩
    have hpass := (passes_line hheader.1 hheader.2.1 hheader.2.2).append (h.passes_bodyLines hplain)
    have := hpass line line 0 []
    rwa [List.append_nil] at this

end WorkflowSpec

end AgentFlow
