import AgentFlow.Proofs.Flowchart.Kinds
import AgentFlow.Proofs.Text.Distinct
import AgentFlow.Proofs.Text.Rows

/-!
# Lines without meaning

Blank lines and comments are for the reader of a flow chart only.  Reading the chart passes over
them, but its first line is taken for the header whatever stands there, and the checks of arrows,
brackets and quotes look at comments too.

* `read_insert`: a silent line changes the graph only as the first line.
* `lineKinds_insert`: what a silent line adds to the checks of lines.
* `unbalanced?_insert`: a blank line leaves the check of brackets as it is.
* `insertion_unchanged_iff`: **a blank line leaves a chart as it is unless it stands before a header
  on the first line; a comment does exactly if it draws no arrow without ends, has its quotes in
  pairs and leaves the brackets nested or not as they were.**
-/

namespace AgentFlow.Flowchart

open Text

/-! ### Rows -/

/-- The lines of a text, all of them taken as closed. -/
def rows (body : String) : List (List Char) := closedLines body.toList

def isInked (cs : List Char) : Bool := cs.any fun c => !isBlank c

theorem trimmed_dropReturn (cs : List Char) : trimmed (dropReturn cs) = trimmed cs :=
  trim_dropReturn cs

theorem added_dropReturn (cs : List Char) : added (dropReturn cs) = added cs := by
  rw [added, trimmed_dropReturn, added]

theorem headerWords?_eq (body : String) :
    headerWords? body =
      ((rows body).find? isInked).map fun cs => (wordsOf cs).map String.ofList := by
  have hlines : headerWords? body =
      ((linesOf body.toList).find? isInked).map fun cs => (wordsOf cs).map String.ofList := by
    have hink : hasInk ∘ String.ofList = isInked :=
      funext fun cs => congrArg (List.any · _) String.toList_ofList
    have hwords : words ∘ String.ofList = fun cs => (wordsOf cs).map String.ofList :=
      funext fun cs => congrArg (List.map _ <| wordsOf ·) String.toList_ofList
    rw [headerWords?, lines, List.find?_map, Option.map_map, hink, hwords]
  rw [hlines]
  refine eq_closedLines (F := fun ls => (ls.find? isInked).map fun cs =>
    (wordsOf cs).map String.ofList) (fun init last => ?_) (fun init => ?_) body.toList
  · have hink : isInked (dropReturn last) = isInked last := any_dropReturn last
    simp only [List.find?_append]
    cases init.find? isInked with
    | some cs => rfl
    | none =>
      by_cases h : isInked last = true
      · rw [List.find?_cons_of_pos h, List.find?_cons_of_pos (hink.trans h)]
        simp [wordsOf_dropReturn]
      · rw [List.find?_cons_of_neg h, List.find?_cons_of_neg (hink ▸ h)]
  · simp only [List.find?_append]
    cases init.find? isInked <;> rfl

theorem flatMap_rows {β : Type} {g : List Char → List β} (hreturn : ∀ cs, g (dropReturn cs) = g cs)
    (hnil : g [] = []) (cs : List Char) :
    ((linesOf cs).drop 1).flatMap g = ((closedLines cs).drop 1).flatMap g := by
  refine eq_closedLines (F := fun ls => (ls.drop 1).flatMap g) (fun init last => ?_)
    (fun init => ?_) cs
  · cases init with
    | nil => rfl
    | cons l init => simp [hreturn]
  · cases init with
    | nil => rfl
    | cons l init => simp [hnil]

theorem read_nodes (body : String) :
    (Graph.read body).nodes = ((rows body).drop 1).flatMap fun l => (added l).nodes := by
  rw [Graph.read, Graph.ofLines_nodes]
  exact flatMap_rows (fun cs => by rw [added_dropReturn]) rfl body.toList

theorem read_arrows (body : String) :
    (Graph.read body).arrows = ((rows body).drop 1).flatMap fun l => (added l).arrows := by
  rw [Graph.read, Graph.ofLines_arrows]
  exact flatMap_rows (fun cs => by rw [added_dropReturn]) rfl body.toList

/-- Lines are checked one after the other. -/
theorem lineKinds_append_congr {bs bs' : List (List Char)}
    (h : ∀ depth, lineKinds depth bs = lineKinds depth bs') (as : List (List Char)) (depth : Nat) :
    lineKinds depth (as ++ bs) = lineKinds depth (as ++ bs') := by
  induction as generalizing depth with
  | nil => exact h depth
  | cons a as ih => simp only [List.cons_append, lineKinds, ih]

theorem lineKinds_rows (body : String) :
    lineKinds 0 (linesOf body.toList) = lineKinds 0 (rows body) := by
  refine eq_closedLines (F := lineKinds 0) (fun init last => ?_) (fun init => ?_) body.toList
  · refine lineKinds_append_congr (fun depth => ?_) init 0
    rw [lineKinds, lineKinds, opensGroup, closesGroup, isBroken, trimmed_dropReturn]
    rfl
  · have hempty (depth : Nat) : lineKinds depth [[]] = lineKinds depth [] := rfl
    have happend := lineKinds_append_congr hempty init 0
    rwa [List.append_nil] at happend

/-! ### Insertion into a text -/

variable {before after : List String} {line : String}

theorem bodyOf_cons (l : String) {ls : List String} (hne : ls ≠ []) :
    (bodyOf (l :: ls)).toList = l.toList ++ '\n' :: (bodyOf ls).toList := by
  obtain ⟨l', more, rfl⟩ := List.exists_cons_of_ne_nil hne
  rw [bodyOf, String.intercalate_cons_cons, String.toList_append, String.toList_append,
    List.append_assoc]
  rfl

/-- An inserted line is inserted characters. -/
theorem exists_insertion (hne : before ++ after ≠ []) (line : String) :
    ∃ as bs cs, (bodyOf (before ++ after)).toList = as ++ bs ∧
      (bodyOf (before ++ line :: after)).toList = as ++ (cs ++ bs) ∧
      (cs = line.toList ++ ['\n'] ∨ cs = '\n' :: line.toList) := by
  induction before with
  | nil =>
    rw [List.nil_append] at hne
    refine ⟨[], (bodyOf after).toList, _, rfl, ?_, .inl rfl⟩
    rw [List.nil_append, List.nil_append, bodyOf_cons line hne, List.append_assoc]
    rfl
  | cons l before ih =>
    by_cases hrest : before ++ after = []
    · obtain ⟨rfl, rfl⟩ := List.append_eq_nil_iff.mp hrest
      refine ⟨l.toList, [], '\n' :: line.toList, ?_, ?_, .inr rfl⟩
      · simp [bodyOf]
      · rw [List.singleton_append, bodyOf_cons l (List.cons_ne_nil _ _)]
        simp [bodyOf]
    · obtain ⟨as, bs, cs, hold, hnew, hcs⟩ := ih hrest
      refine ⟨l.toList ++ '\n' :: as, bs, cs, ?_, ?_, hcs⟩
      · rw [List.cons_append, bodyOf_cons l hrest, hold, List.append_assoc, List.cons_append]
      · rw [List.cons_append, bodyOf_cons l (by simp), hnew, List.append_assoc, List.cons_append]

def rowsOf (ls : List String) : List (List Char) := ls.flatMap fun s => closedLines s.toList

theorem rows_bodyOf (hne : before ++ after ≠ []) :
    rows (bodyOf (before ++ after)) = rowsOf before ++ rowsOf after := by
  rw [rows, bodyOf, closedLines_intercalate_flatMap hne, List.flatMap_append]
  rfl

theorem rows_insert (hline : '\n' ∉ line.toList) :
    rows (bodyOf (before ++ line :: after)) =
      rowsOf before ++ dropReturn line.toList :: rowsOf after := by
  rw [rows_bodyOf (List.append_ne_nil_of_right_ne_nil _ (List.cons_ne_nil _ _)), rowsOf, rowsOf,
    List.flatMap_cons, closedLines_of_not_mem hline]
  rfl

theorem rowsOf_ne_nil (h : before ≠ []) : rowsOf before ≠ [] := by
  obtain ⟨l, rest, rfl⟩ := List.exists_cons_of_ne_nil h
  rw [rowsOf, List.flatMap_cons]
  exact List.append_ne_nil_of_left_ne_nil (closedLines_ne_nil _) _

theorem any_closedLines (cs : List Char) : (closedLines cs).any isInked = isInked cs := by
  rw [closedLines, List.any_map]
  have hink : isInked ∘ dropReturn = isInked := funext any_dropReturn
  rw [hink]
  induction cs with
  | nil => rfl
  | cons c cs ih =>
    obtain ⟨first, rest, hsplit⟩ := List.exists_cons_of_ne_nil (List.splitOn_ne_nil '\n' cs)
    rw [List.splitOn_eq_splitOnP] at ih hsplit ⊢
    rw [hsplit, List.any_cons] at ih
    rw [List.splitOnP_cons_eq_if_modifyHead, hsplit]
    split
    · next hc =>
      rw [List.any_cons, List.any_cons, ih, beq_iff_eq.mp hc]
      rfl
    · rw [List.modifyHead_cons, List.any_cons, isInked, List.any_cons, Bool.or_assoc]
      exact congrArg (_ || ·) ih

theorem exists_inked_row (h : ∃ l ∈ before, hasInk l = true) :
    ∃ r ∈ rowsOf before, isInked r = true := by
  obtain ⟨l, hl, hink⟩ := h
  have hany : (closedLines l.toList).any isInked = true := (any_closedLines _).trans hink
  obtain ⟨r, hr, hrink⟩ := List.any_eq_true.mp hany
  exact ⟨r, List.mem_flatMap.mpr ⟨l, hl, hr⟩, hrink⟩

/-! ### Silent lines -/

/-- Nothing is read from the line: it is blank or a comment. -/
def isSilent (raw : List Char) : Bool :=
  (trimmed raw).isEmpty || "%%".toList.isPrefixOf (trimmed raw)

variable {raw : List Char} {as bs : List (List Char)}

theorem trimmed_of_blank (h : isInked raw = false) : trimmed raw = [] := by
  have hall : ∀ c ∈ raw, isBlank c = true := by
    intro c hc
    simpa using List.any_eq_false.mp h c hc
  rw [trimmed, (dropBlank_eq_nil_iff raw).mpr hall]
  rfl

theorem isSilent_of_blank (h : isInked raw = false) : isSilent raw = true := by
  rw [isSilent, trimmed_of_blank h]
  rfl

theorem added_of_isSilent (h : isSilent raw = true) : added raw = {} := by
  have hlayout : isLayout (trimmed raw) = true := by
    rw [isLayout, Bool.or_eq_true, Bool.or_eq_true]
    exact .inl (.inl h)
  rw [added, Graph.addLine, if_pos hlayout]

theorem not_group_of_isSilent (h : isSilent raw = true) :
    opensGroup raw = false ∧ closesGroup raw = false := by
  rw [isSilent, Bool.or_eq_true, List.isEmpty_iff, List.isPrefixOf_iff_prefix] at h
  rw [opensGroup, closesGroup]
  rcases h with h | ⟨rest, h⟩
  · rw [h]
    decide
  · rw [← h]
    exact ⟨rfl, rfl⟩

/-- **A silent line changes the kinds only by an arrow without ends.** -/
theorem lineKinds_insert (h : isSilent raw = true) (hb : isBroken raw = false) (depth : Nat) :
    lineKinds depth (as ++ raw :: bs) = lineKinds depth (as ++ bs) := by
  refine lineKinds_append_congr (fun depth => ?_) as depth
  rw [lineKinds, (not_group_of_isSilent h).1, (not_group_of_isSilent h).2, hb]
  rfl

/-- Every arrow without ends is found, unless its line is for a group. -/
theorem count_invalidArrow (depth : Nat) (ls : List (List Char)) :
    (lineKinds depth ls).count .invalidArrow =
      ls.countP fun l => !opensGroup l && !closesGroup l && isBroken l := by
  induction ls generalizing depth with
  | nil => rw [lineKinds]; split <;> rfl
  | cons l ls ih =>
    rw [lineKinds, List.countP_cons]
    cases opensGroup l with
    | true => exact ih _
    | false =>
      cases closesGroup l with
      | true =>
        rw [if_neg Bool.false_ne_true, if_pos rfl]
        split
        · rw [List.count_cons_of_ne (by decide)]
          exact ih _
        · exact ih _
      | false =>
        cases isBroken l with
        | true =>
          rw [if_neg Bool.false_ne_true, if_neg Bool.false_ne_true, if_pos rfl,
            List.count_cons_self, ih]
          rfl
        | false => exact ih _

/-! ### Header and graph -/

theorem headerWords?_insert (hne : before ++ after ≠ []) (hline : '\n' ∉ line.toList)
    (h : hasInk line = false ∨ ∃ l ∈ before, hasInk l = true) :
    headerWords? (bodyOf (before ++ line :: after)) = headerWords? (bodyOf (before ++ after)) := by
  rw [headerWords?_eq, headerWords?_eq, rows_bodyOf hne, rows_insert hline, List.find?_append,
    List.find?_append]
  rcases h with h | h
  · have hrow : ¬ isInked (dropReturn line.toList) = true := by
      rw [isInked, any_dropReturn]
      exact Bool.eq_false_iff.mp h
    rw [List.find?_cons_of_neg hrow]
  · obtain ⟨r, hr, hink⟩ := exists_inked_row h
    obtain ⟨r', hr'⟩ := Option.isSome_iff_exists.mp (List.find?_isSome.mpr ⟨r, hr, hink⟩)
    rw [hr']
    rfl

/-- What the first line of a text would add to its graph. -/
def firstAdded (body : String) : Graph := added ((linesOf body.toList).headD [])

theorem firstAdded_eq (body : String) : firstAdded body = added ((rows body).headD []) := by
  refine eq_closedLines (F := fun ls => added (ls.headD [])) (fun init last => ?_) (fun init => ?_)
    body.toList
  · cases init with
    | nil => exact added_dropReturn last
    | cons l init => rfl
  · cases init <;> rfl

/-- **A silent line changes a graph only as the first line**, where it makes the former first line a
line of the chart. -/
theorem read_insert (hne : before ++ after ≠ []) (hline : '\n' ∉ line.toList)
    (h : isSilent line.toList = true) :
    Graph.read (bodyOf (before ++ line :: after)) =
      if before = [] then
        ⟨(firstAdded (bodyOf after)).nodes ++ (Graph.read (bodyOf after)).nodes,
          (firstAdded (bodyOf after)).arrows ++ (Graph.read (bodyOf after)).arrows⟩
      else Graph.read (bodyOf (before ++ after)) := by
  have hgraph : ∀ body, Graph.read body = ⟨((rows body).drop 1).flatMap fun l => (added l).nodes,
      ((rows body).drop 1).flatMap fun l => (added l).arrows⟩ := by
    intro body
    rw [← read_nodes, ← read_arrows]
  rw [firstAdded_eq]
  split
  · next hbefore =>
    subst hbefore
    rw [List.nil_append] at hne
    obtain ⟨r, rest, hrows⟩ := List.exists_cons_of_ne_nil (rowsOf_ne_nil hne)
    have hparts : rows (bodyOf ([] ++ after)) = rowsOf [] ++ rowsOf after := rows_bodyOf hne
    have hold : rows (bodyOf after) = r :: rest := hparts.trans hrows
    rw [hgraph, hgraph (bodyOf after), rows_insert hline, hold, hrows]
    rfl
  · next hbefore =>
    have hadded : added (dropReturn line.toList) = {} := by
      rw [added_dropReturn, added_of_isSilent h]
    obtain ⟨r, rest, hrows⟩ := List.exists_cons_of_ne_nil (rowsOf_ne_nil hbefore)
    rw [hgraph, hgraph (bodyOf (before ++ after)), rows_insert hline, rows_bodyOf hne, hrows]
    simp [hadded]

/-! ### Brackets and quotes -/

/-- Characters without marks do not change what is wrong with brackets. -/
theorem unbalancedFrom_insert {cs : List Char} (h : ∀ c ∈ cs, isUnmarked c = true)
    (as bs : List Char) (quoted : Bool) (stack : List Char) :
    unbalancedFrom quoted stack (as ++ (cs ++ bs)) = unbalancedFrom quoted stack (as ++ bs) := by
  induction as generalizing quoted stack with
  | nil =>
    induction cs with
    | nil => rfl
    | cons c cs ih =>
      rw [List.forall_mem_cons] at h
      have hc := h.1
      rw [isUnmarked, Bool.and_eq_true, Bool.and_eq_true, bne_iff_ne, Bool.not_eq_true',
        Option.isNone_iff_eq_none] at hc
      rw [List.nil_append, List.cons_append, unbalancedFrom, beq_false_of_ne hc.1.1, hc.1.2, hc.2,
        if_neg Bool.false_ne_true, if_neg Bool.false_ne_true]
      have := ih h.2
      rw [List.nil_append] at this
      split <;> exact this
  | cons a as ih => simp only [List.cons_append, unbalancedFrom, ih]

theorem isUnmarked_of_isBlank {c : Char} (h : isBlank c = true) : isUnmarked c = true := by
  have hne : ∀ d, isBlank d = false → (c == d) = false := by
    intro d hd
    refine beq_false_of_ne ?_
    rintro rfl
    exact Bool.noConfusion (h.symm.trans hd)
  rw [isUnmarked, bne, hne '"' (by decide), opens, hne '[' (by decide), hne '(' (by decide),
    hne '\x7b' (by decide), opener?, hne ']' (by decide), hne ')' (by decide),
    hne '\x7d' (by decide)]
  rfl

/-- A blank line leaves the check of brackets as it is. -/
theorem unbalanced?_insert (hne : before ++ after ≠ []) (h : hasInk line = false) :
    unbalanced? (bodyOf (before ++ line :: after)) = unbalanced? (bodyOf (before ++ after)) := by
  obtain ⟨as, bs, cs, hold, hnew, hcs⟩ := exists_insertion hne line
  have hline : ∀ c ∈ line.toList, isUnmarked c = true := by
    intro c hc
    exact isUnmarked_of_isBlank (by simpa using List.any_eq_false.mp h c hc)
  have hall : ∀ c ∈ cs, isUnmarked c = true := by
    rcases hcs with rfl | rfl
    · rw [List.forall_mem_append]
      exact ⟨hline, by decide⟩
    · rw [List.forall_mem_cons]
      exact ⟨by decide, hline⟩
  rw [unbalanced?, hnew, unbalancedFrom_insert hall, unbalanced?, hold]

/-- The quotes of an inserted line come to those of the text. -/
theorem count_insert (hne : before ++ after ≠ []) (line : String) :
    (bodyOf (before ++ line :: after)).toList.count '"' =
      (bodyOf (before ++ after)).toList.count '"' + line.toList.count '"' := by
  obtain ⟨as, bs, cs, hold, hnew, hcs⟩ := exists_insertion hne line
  have hcount : cs.count '"' = line.toList.count '"' := by
    rcases hcs with rfl | rfl
    · rw [List.count_append]
      rfl
    · exact List.count_cons_of_ne (by decide)
  rw [hold, hnew, List.count_append, List.count_append, List.count_append, hcount]
  omega

/-! ### Kinds -/

/-- Whether the text of a diagram is a flow chart. -/
def isFlowchart (body : String) : Bool :=
  (headerWords? body).any fun ws => isChartType (keyword ws)

theorem isFlowchart_iff {body : String} :
    isFlowchart body = true ↔
      ∃ header, headerWords? body = some header ∧ isChartType (keyword header) = true := by
  rw [isFlowchart]
  cases headerWords? body <;> simp

theorem isKnownType_of_isChartType {k : String} (h : isChartType k = true) :
    isKnownType k = true := by
  rw [isChartType, Bool.or_eq_true, beq_iff_eq, beq_iff_eq] at h
  rcases h with rfl | rfl <;> decide

theorem kindsOf_eq {body : String} {header : List String} (h : headerWords? body = some header)
    (hchart : isChartType (keyword header) = true) :
    kindsOf body = bracketKinds body ++ quoteKinds body ++ (directionKinds header ++
      lineKinds 0 (rows body) ++ (looseEnds (Graph.read body)).map fun _ => .undeclaredNode) := by
  rw [kindsOf, h, ← lineKinds_rows]
  dsimp only
  rw [if_pos (isKnownType_of_isChartType hchart), if_pos hchart]
  rfl

/-- Ends of arrows are loose or not by the names of the nodes. -/
theorem looseEnds_congr {g g' : Graph} (harrows : g'.arrows = g.arrows)
    (hnodes : ∀ s, s ∈ g'.nodes ↔ s ∈ g.nodes) : looseEnds g' = looseEnds g := by
  rw [looseEnds, looseEnds, harrows]
  refine List.filter_congr fun s _ => ?_
  rw [Bool.eq_iff_iff]
  simp [hnodes]

/-- The text of a chart and the text with an inserted line have the same kinds, if no check finds
the line. -/
theorem kindsOf_insert (hne : before ++ after ≠ []) (hline : '\n' ∉ line.toList)
    (hchart : isFlowchart (bodyOf (before ++ after)) = true)
    (hheader : headerWords? (bodyOf (before ++ line :: after)) =
      headerWords? (bodyOf (before ++ after)))
    (hsilent : isSilent line.toList = true) (hbroken : isBroken line.toList = false)
    (hquotes : line.toList.count '"' % 2 = 0)
    (hbrackets : Nested (bracketsOf (bodyOf (before ++ line :: after))) ↔
      Nested (bracketsOf (bodyOf (before ++ after))))
    (hloose : looseEnds (Graph.read (bodyOf (before ++ line :: after))) =
      looseEnds (Graph.read (bodyOf (before ++ after)))) :
    kindsOf (bodyOf (before ++ line :: after)) = kindsOf (bodyOf (before ++ after)) := by
  obtain ⟨header, hold, htype⟩ := isFlowchart_iff.mp hchart
  have hrow : isSilent (dropReturn line.toList) = true ∧
      isBroken (dropReturn line.toList) = false := by
    rw [isSilent, isBroken, trimmed_dropReturn]
    exact ⟨hsilent, hbroken⟩
  have hlines : lineKinds 0 (rows (bodyOf (before ++ line :: after))) =
      lineKinds 0 (rows (bodyOf (before ++ after))) := by
    rw [rows_insert hline, rows_bodyOf hne, lineKinds_insert hrow.1 hrow.2]
  have hquoteKinds : quoteKinds (bodyOf (before ++ line :: after)) =
      quoteKinds (bodyOf (before ++ after)) := by
    rw [quoteKinds, quoteKinds, count_insert hne, Nat.add_mod, hquotes, Nat.add_zero, Nat.mod_mod]
  have hbracketKinds : bracketKinds (bodyOf (before ++ line :: after)) =
      bracketKinds (bodyOf (before ++ after)) := by
    have hnone : (unbalanced? (bodyOf (before ++ line :: after))).isNone =
        (unbalanced? (bodyOf (before ++ after))).isNone := by
      rw [Bool.eq_iff_iff, Option.isNone_iff_eq_none, Option.isNone_iff_eq_none,
        unbalanced?_eq_none_iff, unbalanced?_eq_none_iff, hbrackets]
    rw [bracketKinds, hnone, bracketKinds]
  rw [kindsOf_eq (hheader.trans hold) htype, kindsOf_eq hold htype, hlines, hquoteKinds,
    hbracketKinds, hloose]

/-- The arrows without ends that are found in a chart. -/
theorem count_invalidArrow_kindsOf {body : String} (h : isFlowchart body = true) :
    (kindsOf body).count .invalidArrow =
      (rows body).countP fun l => !opensGroup l && !closesGroup l && isBroken l := by
  obtain ⟨header, hheader, htype⟩ := isFlowchart_iff.mp h
  have hbracket : (bracketKinds body).count .invalidArrow = 0 := by
    rw [bracketKinds]
    split <;> rfl
  have hquote : (quoteKinds body).count .invalidArrow = 0 := by
    rw [quoteKinds]
    split <;> rfl
  have hdirection : (directionKinds header).count .invalidArrow = 0 := by
    rw [directionKinds]
    split <;> rfl
  have hloose : ((looseEnds (Graph.read body)).map fun _ => IssueKind.undeclaredNode).count
      .invalidArrow = 0 := by
    refine List.count_eq_zero.mpr fun hmem => ?_
    obtain ⟨_, -, he⟩ := List.mem_map.mp hmem
    exact absurd he (by decide)
  rw [kindsOf_eq hheader htype]
  simp only [List.count_append, hbracket, hquote, hdirection, hloose, Nat.zero_add, Nat.add_zero]
  exact count_invalidArrow 0 (rows body)

/-! ### Charts that are the same -/

/-- Two texts have the same graph, and the same kinds of issues in the same order, on whatever line
they start. -/
structure SameChart (body body' : String) : Prop where
  names : (Graph.read body').names = (Graph.read body).names
  arrows : (Graph.read body').arrows = (Graph.read body).arrows
  kinds : ∀ n, (Diagram.check ⟨n, body'⟩).map (·.kind) = (Diagram.check ⟨n, body⟩).map (·.kind)

theorem sameChart_iff {body body' : String} :
    SameChart body body' ↔
      (∀ s, s ∈ (Graph.read body').nodes ↔ s ∈ (Graph.read body).nodes) ∧
        (Graph.read body').arrows = (Graph.read body).arrows ∧ kindsOf body' = kindsOf body := by
  constructor
  · rintro ⟨hnames, harrows, hkinds⟩
    refine ⟨distinctSorted_eq_iff.mp hnames, harrows, ?_⟩
    have := hkinds 1
    rwa [Diagram.map_kind_check, Diagram.map_kind_check] at this
  · rintro ⟨hnodes, harrows, hkinds⟩
    refine ⟨distinctSorted_eq_iff.mpr hnodes, harrows, fun n => ?_⟩
    rwa [Diagram.map_kind_check, Diagram.map_kind_check]

/-- The first line of a text has no more for its graph than the other lines. -/
def FirstAddsNothing (body : String) : Prop :=
  (firstAdded body).arrows = [] ∧ ∀ s ∈ (firstAdded body).nodes, s ∈ (Graph.read body).nodes

instance (body : String) : Decidable (FirstAddsNothing body) := inferInstanceAs (Decidable (_ ∧ _))

theorem ne_nil_of_isFlowchart {ls : List String} (h : isFlowchart (bodyOf ls) = true) :
    ls ≠ [] := by
  rintro rfl
  exact absurd h (by decide)

theorem hasKnownType_of_isFlowchart {body : String} (h : isFlowchart body = true) :
    hasKnownType body = true := by
  obtain ⟨header, hheader, htype⟩ := isFlowchart_iff.mp h
  rw [hasKnownType, hheader]
  exact isKnownType_of_isChartType htype

/-- A silent line leaves the graph as it is, unless it makes a line of the chart out of a header. -/
theorem sameGraph_insert_iff (hne : before ++ after ≠ []) (hline : '\n' ∉ line.toList)
    (h : isSilent line.toList = true) :
    ((∀ s, s ∈ (Graph.read (bodyOf (before ++ line :: after))).nodes ↔
          s ∈ (Graph.read (bodyOf (before ++ after))).nodes) ∧
        (Graph.read (bodyOf (before ++ line :: after))).arrows =
          (Graph.read (bodyOf (before ++ after))).arrows) ↔
      (before = [] → FirstAddsNothing (bodyOf after)) := by
  rw [read_insert hne hline h]
  by_cases hbefore : before = []
  · subst hbefore
    rw [if_pos rfl]
    constructor
    · rintro ⟨hnodes, harrows⟩ -
      exact ⟨List.append_left_eq_self.mp harrows,
        fun s hs => (hnodes s).mp (List.mem_append_left _ hs)⟩
    · intro hfirst
      obtain ⟨harrows, hnodes⟩ := hfirst rfl
      refine ⟨fun s => ?_, List.append_left_eq_self.mpr harrows⟩
      rw [List.mem_append]
      exact ⟨fun hs => hs.elim (hnodes s) id, .inr⟩
  · rw [if_neg hbefore]
    exact ⟨fun _ he => absurd he hbefore, fun _ => ⟨fun _ => .rfl, rfl⟩⟩

/-- **A blank line leaves a chart as it is, unless it makes a line of the chart out of a
header.** -/
theorem sameChart_blank_iff (hline : '\n' ∉ line.toList)
    (hchart : isFlowchart (bodyOf (before ++ after)) = true) (hblank : hasInk line = false) :
    SameChart (bodyOf (before ++ after)) (bodyOf (before ++ line :: after)) ↔
      before = [] → FirstAddsNothing (bodyOf after) := by
  have hne := ne_nil_of_isFlowchart hchart
  have hsilent := isSilent_of_blank hblank
  have hquotes : line.toList.count '"' = 0 := by
    refine List.count_eq_zero.mpr fun hmem => ?_
    have := List.any_eq_false.mp hblank _ hmem
    exact this (by decide)
  have hbroken : isBroken line.toList = false := by
    rw [isBroken, trimmed_of_blank hblank]
    rfl
  have hbrackets : Nested (bracketsOf (bodyOf (before ++ line :: after))) ↔
      Nested (bracketsOf (bodyOf (before ++ after))) := by
    rw [← unbalanced?_eq_none_iff, ← unbalanced?_eq_none_iff, unbalanced?_insert hne hblank]
  rw [sameChart_iff, ← sameGraph_insert_iff hne hline hsilent]
  constructor
  · rintro ⟨hnodes, harrows, -⟩
    exact ⟨hnodes, harrows⟩
  · rintro ⟨hnodes, harrows⟩
    exact ⟨hnodes, harrows, kindsOf_insert hne hline hchart
      (headerWords?_insert hne hline (.inl hblank)) hsilent hbroken (by rw [hquotes]) hbrackets
      (looseEnds_congr harrows hnodes)⟩

/-- One more arrow without ends is found, if the line draws one. -/
theorem isBroken_of_kindsOf_insert (hne : before ++ after ≠ []) (hline : '\n' ∉ line.toList)
    (hchart : isFlowchart (bodyOf (before ++ after)) = true)
    (hnew : isFlowchart (bodyOf (before ++ line :: after)) = true)
    (hsilent : isSilent line.toList = true)
    (hkinds : kindsOf (bodyOf (before ++ line :: after)) = kindsOf (bodyOf (before ++ after))) :
    isBroken line.toList = false := by
  have hcount := count_invalidArrow_kindsOf hnew
  rw [hkinds, count_invalidArrow_kindsOf hchart, rows_insert hline, rows_bodyOf hne,
    List.countP_append, List.countP_append, List.countP_cons] at hcount
  by_contra hbroken
  have hrow : isSilent (dropReturn line.toList) = true ∧
      isBroken (dropReturn line.toList) = true := by
    rw [isSilent, isBroken, trimmed_dropReturn]
    exact ⟨hsilent, Bool.not_eq_false _ ▸ hbroken⟩
  rw [(not_group_of_isSilent hrow.1).1, (not_group_of_isSilent hrow.1).2, hrow.2,
    if_pos (by decide)] at hcount
  omega

/-- **A comment leaves a chart as it is, unless a check finds it.** -/
theorem sameChart_comment_iff (hline : '\n' ∉ line.toList)
    (hchart : isFlowchart (bodyOf (before ++ after)) = true)
    (hcomment : "%%".toList.isPrefixOf (trimmed line.toList) = true)
    (hbefore : ∃ l ∈ before, hasInk l = true) :
    SameChart (bodyOf (before ++ after)) (bodyOf (before ++ line :: after)) ↔
      isBroken line.toList = false ∧ line.toList.count '"' % 2 = 0 ∧
        (Nested (bracketsOf (bodyOf (before ++ line :: after))) ↔
          Nested (bracketsOf (bodyOf (before ++ after)))) := by
  have hne := ne_nil_of_isFlowchart hchart
  have hsilent : isSilent line.toList = true := by rw [isSilent, hcomment, Bool.or_true]
  have hheader := headerWords?_insert hne hline (.inr hbefore)
  have hread : Graph.read (bodyOf (before ++ line :: after)) =
      Graph.read (bodyOf (before ++ after)) := by
    obtain ⟨l, hl, -⟩ := hbefore
    rw [read_insert hne hline hsilent, if_neg (List.ne_nil_of_mem hl)]
  rw [sameChart_iff, hread]
  constructor
  · rintro ⟨-, -, hkinds⟩
    have hnew : isFlowchart (bodyOf (before ++ line :: after)) = true := by
      rw [isFlowchart, hheader]
      exact hchart
    have hknown := hasKnownType_of_isFlowchart hchart
    have hknown' := hasKnownType_of_isFlowchart hnew
    refine ⟨isBroken_of_kindsOf_insert hne hline hchart hnew hsilent hkinds, ?_, ?_⟩
    · have hquotes := mismatchedQuotes_mem_iff (bodyOf (before ++ line :: after))
      rw [hkinds, mismatchedQuotes_mem_iff, hknown, hknown', count_insert hne] at hquotes
      simp only [true_and] at hquotes
      omega
    · have hbrackets := unbalancedBrackets_mem_iff (bodyOf (before ++ line :: after))
      rw [hkinds, unbalancedBrackets_mem_iff, hknown, hknown'] at hbrackets
      simpa using not_congr hbrackets.symm
  · rintro ⟨hbroken, hquotes, hbrackets⟩
    exact ⟨fun _ => .rfl, rfl, kindsOf_insert hne hline hchart hheader hsilent hbroken hquotes
      hbrackets (by rw [hread])⟩

/-- **When inserting a line without meaning leaves a flow chart as it is.** -/
theorem insertion_unchanged_iff (before after : List String) (line : String)
    (hline : '\n' ∉ line.toList) (hchart : isFlowchart (bodyOf (before ++ after)) = true) :
    (hasInk line = false →
      (SameChart (bodyOf (before ++ after)) (bodyOf (before ++ line :: after)) ↔
        (before = [] → FirstAddsNothing (bodyOf after)))) ∧
    ("%%".toList.isPrefixOf (trimmed line.toList) = true → (∃ l ∈ before, hasInk l = true) →
      (SameChart (bodyOf (before ++ after)) (bodyOf (before ++ line :: after)) ↔
        isBroken line.toList = false ∧ line.toList.count '"' % 2 = 0 ∧
          (Nested (bracketsOf (bodyOf (before ++ line :: after))) ↔
            Nested (bracketsOf (bodyOf (before ++ after)))))) :=
  ⟨sameChart_blank_iff hline hchart, sameChart_comment_iff hline hchart⟩

/-- A blank line before the header makes a node of the header, and a comment may be found as an
arrow; a comment in words changes nothing. -/
theorem insertion_unchanged_iff_chart :
    (¬ SameChart (bodyOf ["flowchart TD", "    A[\"A\"]"])
      (bodyOf ["", "flowchart TD", "    A[\"A\"]"])) ∧
    (¬ SameChart (bodyOf ["flowchart TD", "    A[\"A\"]"])
      (bodyOf ["flowchart TD", "    A[\"A\"]", "%% A -->"])) ∧
    SameChart (bodyOf ["flowchart TD", "    A[\"A\"]"])
      (bodyOf ["flowchart TD", "  %% nodes (one)", "    A[\"A\"]"]) := by
  refine ⟨fun h => ?_, fun h => ?_, ?_⟩
  · have hfirst := ((insertion_unchanged_iff [] ["flowchart TD", "    A[\"A\"]"] "" (by decide)
      (by decide)).1 (by decide)).mp h rfl
    exact absurd hfirst (by decide)
  · have hfound := ((insertion_unchanged_iff ["flowchart TD", "    A[\"A\"]"] [] "%% A -->"
      (by decide) (by decide)).2 (by decide) ⟨_, List.mem_cons_self, by decide⟩).mp h
    exact absurd hfound.1 (by decide)
  · refine ((insertion_unchanged_iff ["flowchart TD"] ["    A[\"A\"]"] "  %% nodes (one)"
      (by decide) (by decide)).2 (by decide) ⟨_, List.mem_cons_self, by decide⟩).mpr
      ⟨by decide, by decide, ?_⟩
    rw [← unbalanced?_eq_none_iff, ← unbalanced?_eq_none_iff]
    decide

end AgentFlow.Flowchart
