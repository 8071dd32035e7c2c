import AgentFlow.Flowchart.Basic
import AgentFlow.Proofs.Text.Trim
import AgentFlow.Proofs.Workflow.Names

/-!
# Reading a chart line by line

What a line adds to a graph depends on the line only.  This file says what the lines add that a
chart is written with: declarations of nodes, arrows, and lines for grouping.

* `Graph.ofLines_nodes`, `Graph.ofLines_arrows`: a graph has what its lines add, in order.
* `splitArrow?_arrowText`: an arrow is cut at its stroke, whatever stands at its ends.
* `isLayout_name`: **a line that starts with a name is for layout only if the name starts with
  the word for groups.**
-/

namespace AgentFlow.Flowchart

open Text

/-! ### What a line adds -/

def added (raw : List Char) : Graph := Graph.addLine {} (trimmed raw)

theorem addLine_eq (g : Graph) (line : List Char) :
    g.addLine line = ⟨g.nodes ++ (Graph.addLine {} line).nodes,
      g.arrows ++ (Graph.addLine {} line).arrows⟩ := by
  unfold Graph.addLine
  split
  · simp
  · split
    · simp
    · split <;> simp

theorem foldl_addLine (lines : List (List Char)) (g : Graph) :
    (lines.map trimmed).foldl Graph.addLine g =
      ⟨g.nodes ++ lines.flatMap (fun l => (added l).nodes),
        g.arrows ++ lines.flatMap (fun l => (added l).arrows)⟩ := by
  induction lines generalizing g with
  | nil => simp
  | cons l rest ih =>
    rw [List.map_cons, List.foldl_cons, ih, addLine_eq, List.flatMap_cons, List.flatMap_cons,
      List.append_assoc, List.append_assoc]
    rfl

/-- **A graph has the nodes that its lines declare, in order.** -/
theorem Graph.ofLines_nodes (lines : List (List Char)) :
    (Graph.ofLines lines).nodes = lines.flatMap (fun l => (added l).nodes) := by
  rw [Graph.ofLines, foldl_addLine]
  rfl

/-- **A graph has the arrows that its lines draw, in order.** -/
theorem Graph.ofLines_arrows (lines : List (List Char)) :
    (Graph.ofLines lines).arrows = lines.flatMap (fun l => (added l).arrows) := by
  rw [Graph.ofLines, foldl_addLine]
  rfl

/-! ### Strokes -/

def noStroke (c : Char) : Bool := c != '-' && c != '='

theorem find_stroke_of_noStroke {c : Char} (h : noStroke c = true) (rest : List Char) :
    strokes.find? (fun a => a.toList.isPrefixOf (c :: rest)) = none := by
  rw [noStroke, Bool.and_eq_true, bne_iff_ne, bne_iff_ne] at h
  have hd : ('-' == c) = false := beq_false_of_ne (Ne.symm h.1)
  have he : ('=' == c) = false := beq_false_of_ne (Ne.symm h.2)
  simp [strokes, List.isPrefixOf, hd, he]

/-- The search for a stroke passes over characters that start none. -/
theorem splitStroke?_append {pre : List Char} (h : ∀ c ∈ pre, noStroke c = true)
    (rest : List Char) :
    splitStroke? (pre ++ rest) = (splitStroke? rest).map fun p => (pre ++ p.1, p.2) := by
  induction pre with
  | nil => cases hr : splitStroke? rest <;> simp [hr]
  | cons c pre ih =>
    rw [List.forall_mem_cons] at h
    rw [List.cons_append, splitStroke?, find_stroke_of_noStroke h.1, ih h.2]
    simp [Function.comp_def]

theorem splitStroke?_of_noStroke {cs : List Char} (h : ∀ c ∈ cs, noStroke c = true) :
    splitStroke? cs = none := by
  have := splitStroke?_append h []
  rw [List.append_nil] at this
  rw [this]
  rfl

theorem splitArrow?_of_noStroke {cs : List Char} (h : ∀ c ∈ cs, noStroke c = true) :
    splitArrow? cs = none := by
  rw [splitArrow?, splitStroke?_of_noStroke h]
  rfl

theorem noStroke_of_isNameChar {c : Char} (h : isNameChar c = true) : noStroke c = true := by
  rw [noStroke, Bool.and_eq_true, bne_iff_ne, bne_iff_ne]
  exact ⟨ne_of_isNameChar h (by decide), ne_of_isNameChar h (by decide)⟩

/-! ### Names in lines -/

structure IsWord (cs : List Char) : Prop where
  ne_nil : cs ≠ []
  nameChar : ∀ c ∈ cs, isNameChar c = true

theorem IsWord.solid {cs : List Char} (h : IsWord cs) : Solid cs :=
  solid_of_not_isBlank h.ne_nil fun c hc => not_isBlank_of_isNameChar (h.nameChar c hc)

theorem isWord_of_isNodeName {s : String} (h : IsNodeName s) : IsWord s.toList :=
  ⟨h.ne_nil, h.nameChar⟩

theorem isWord_errorHandler : IsWord errorHandler.toList := ⟨by decide, by decide⟩

theorem trimmed_of_solid {cs : List Char} (h : Solid cs) (before after : List Char)
    (hbefore : ∀ c ∈ before, isBlank c = true) (hafter : ∀ c ∈ after, isBlank c = true) :
    trimmed (before ++ (cs ++ after)) = cs :=
  h.trim_eq hbefore hafter

/-- A solid text stays as it is. -/
theorem trimmed_eq_self {cs : List Char} (h : Solid cs) : trimmed cs = cs := by
  have := trimmed_of_solid h [] [] (by simp) (by simp)
  rwa [List.nil_append, List.append_nil] at this

theorem trimmed_indent {cs : List Char} (h : Solid cs) (n : Nat) :
    trimmed (List.replicate n ' ' ++ cs) = cs := by
  have hblank : ∀ c ∈ List.replicate n ' ', isBlank c = true := by
    intro c hc
    rw [List.eq_of_mem_replicate hc]
    decide
  have := trimmed_of_solid h _ [] hblank (by simp)
  rwa [List.append_nil] at this

theorem not_endsNodeName {c : Char} (h : isNameChar c = true) : endsNodeName c = false := by
  have hne : ∀ d, isNameChar d = false → (c == d) = false := fun d hd =>
    beq_false_of_ne (ne_of_isNameChar h hd)
  rw [endsNodeName, hne '[' (by decide), hne '(' (by decide), hne '\x7b' (by decide),
    hne '>' (by decide), hne ' ' (by decide)]
  rfl

/-- The name of a node ends at the first bracket or blank. -/
theorem nodeName_of_word {name after : List Char} (h : IsWord name) (hs : Solid (name ++ after))
    (hend : ∀ c ∈ after.head?, endsNodeName c = true) : nodeName (name ++ after) = name := by
  have hname : ∀ c ∈ name, (!endsNodeName c) = true := by
    intro c hc
    rw [not_endsNodeName (h.nameChar c hc)]
    rfl
  rw [nodeName, trimmed_eq_self hs, List.takeWhile_append_of_pos hname]
  cases after with
  | nil => rw [List.takeWhile_nil, List.append_nil]
  | cons c rest =>
    have hc : endsNodeName c = true := hend c rfl
    rw [List.takeWhile_cons_of_neg (by simp [hc]), List.append_nil]

theorem nodeName_self {name : List Char} (h : IsWord name) : nodeName name = name := by
  have hs : Solid (name ++ []) := by rw [List.append_nil]; exact h.solid
  have := nodeName_of_word h hs (by simp)
  rwa [List.append_nil] at this

/-! ### Arrows -/

/-- The characters are a stroke, and the search for a stroke finds it as such. -/
def IsStroke (stroke : List Char) : Prop :=
  ∀ rest, splitStroke? (stroke ++ rest) = some ([], rest)

/-- The line of an arrow, without the blanks before it. -/
def arrowText (source stroke label target : List Char) : List Char :=
  source ++ ' ' :: (stroke ++ '|' :: (label ++ '|' :: ' ' :: target))

structure IsLabel (cs : List Char) : Prop where
  ne_nil : cs ≠ []
  labelChar : ∀ c ∈ cs, isLabelChar c = true

theorem IsLabel.solid {cs : List Char} (h : IsLabel cs) : Solid cs :=
  solid_of_not_isBlank h.ne_nil fun c hc => not_isBlank_of_isLabelChar (h.labelChar c hc)

variable {source stroke label target : List Char}

/-- **An arrow is cut at its stroke and its bars.**  A label may look like a stroke itself, but the
first stroke of the line stands before it. -/
theorem splitArrow?_arrowText (hsource : IsWord source) (hstroke : IsStroke stroke)
    (hlabel : IsLabel label) (htarget : IsWord target) :
    splitArrow? (arrowText source stroke label target) = some (source, label, target) := by
  have hpre : ∀ c ∈ source ++ [' '], noStroke c = true := by
    rw [List.forall_mem_append]
    exact ⟨fun c hc => noStroke_of_isNameChar (hsource.nameChar c hc), by decide⟩
  have hline : arrowText source stroke label target =
      (source ++ [' ']) ++ (stroke ++ '|' :: (label ++ '|' :: ' ' :: target)) := by
    simp [arrowText]
  have hbar : ∀ c ∈ label, (c != '|') = true := by
    intro c hc
    rw [bne_iff_ne]
    rintro rfl
    exact Bool.noConfusion ((hlabel.labelChar _ hc).symm.trans (by decide : _ = false))
  have hsrc : trimmed (source ++ [' ']) = source :=
    trimmed_of_solid hsource.solid [] [' '] (by simp) (by decide)
  have htgt : trimmed (' ' :: target) = target := by
    have := trimmed_of_solid htarget.solid [' '] [] (by decide) (by simp)
    rwa [List.append_nil] at this
  rw [splitArrow?, hline, splitStroke?_append hpre, hstroke, Option.map_some, List.append_nil]
  have hdrop : dropBlank ('|' :: (label ++ '|' :: ' ' :: target)) =
      '|' :: (label ++ '|' :: ' ' :: target) := dropBlank_of_head (by simp; decide)
  simp only [Option.bind_eq_bind, Option.bind_some, hdrop, List.dropWhile_append_of_pos hbar,
    List.takeWhile_append_of_pos hbar]
  simp [hsrc, htgt, trimmed_eq_self hlabel.solid]

/-! ### Lines for layout -/

/-- A word of name characters starts a line exactly if it starts the name that the line starts
with. -/
theorem isPrefixOf_name {word name : List Char} (hword : ∀ d ∈ word, isNameChar d = true)
    {c : Char} (hc : isNameChar c = false) (rest : List Char) :
    word.isPrefixOf (name ++ c :: rest) = word.isPrefixOf name := by
  induction word generalizing name with
  | nil => rw [List.isPrefixOf_nil_left, List.isPrefixOf_nil_left]
  | cons d word ih =>
    rw [List.forall_mem_cons] at hword
    cases name with
    | nil =>
      have hd : (d == c) = false := beq_false_of_ne (ne_of_isNameChar hword.1 hc)
      rw [List.nil_append, List.isPrefixOf_cons_cons, hd, Bool.false_and]
      rfl
    | cons n name =>
      rw [List.cons_append, List.isPrefixOf_cons_cons, List.isPrefixOf_cons_cons, ih hword.2]

/-- A word with a blank after it starts a line only if the line starts with the word as a name. -/
theorem eq_of_isPrefixOf_blank {word name : List Char} (hword : ∀ d ∈ word, isNameChar d = true)
    (hname : ∀ d ∈ name, isNameChar d = true) {c : Char} (hc : isNameChar c = false)
    {rest : List Char} (h : (word ++ [' ']).isPrefixOf (name ++ c :: rest) = true) :
    word = name := by
  induction word generalizing name with
  | nil =>
    cases name with
    | nil => rfl
    | cons n name =>
      rw [List.nil_append, List.cons_append, List.isPrefixOf, Bool.and_eq_true, beq_iff_eq] at h
      exact absurd h.1.symm (ne_of_isNameChar (hname n List.mem_cons_self) (by decide))
  | cons d word ih =>
    rw [List.forall_mem_cons] at hword
    cases name with
    | nil =>
      rw [List.nil_append, List.cons_append, List.isPrefixOf, Bool.and_eq_true, beq_iff_eq] at h
      exact absurd h.1 (ne_of_isNameChar hword.1 hc)
    | cons n name =>
      rw [List.forall_mem_cons] at hname
      rw [List.cons_append, List.cons_append, List.isPrefixOf, Bool.and_eq_true, beq_iff_eq] at h
      rw [h.1, ih hword.2 hname.2 h.2]

/-- The words that open a line for styling, each with a blank after it. -/
def stylingWords : List String := ["style", "classDef", "class", "linkStyle", "click"]

theorem not_styling_of_isNodeName {s : String} (h : IsNodeName s) : s ∉ stylingWords := by
  intro hs
  have hk := h.not_keyword
  have hc := not_keyword_of_isClassName h.isClassName
  simp only [stylingWords, List.mem_cons, List.not_mem_nil, or_false] at hs
  rcases hs with rfl | rfl | rfl | rfl | rfl <;> simp [chartKeywords, codeKeywords] at hk hc

theorem layoutWords_eq :
    layoutWords.map String.toList =
      "subgraph".toList :: stylingWords.map (fun w => w.toList ++ [' ']) := by
  decide

/-- A line with another character after a name is not the one that closes a group. -/
theorem ne_end_of_name {name rest : List Char} {c : Char} (hc : isNameChar c = false) :
    (name ++ c :: rest == "end".toList) = false := by
  refine beq_false_of_ne fun he => ?_
  have hmem : c ∈ "end".toList := by rw [← he]; simp
  have hall : ∀ d ∈ "end".toList, isNameChar d = true := by decide
  exact Bool.noConfusion (hc.symm.trans (hall c hmem))

/-- **A line that starts with a name is for layout exactly if the name starts with the word for
groups.** -/
theorem isLayout_name {s : String} (h : IsNodeName s) {c : Char} (hc : isNameChar c = false)
    (rest : List Char) : isLayout (s.toList ++ c :: rest) = startsWith s "subgraph" := by
  have hempty : (s.toList ++ c :: rest).isEmpty = false := by simp
  have hcomment : "%%".toList.isPrefixOf (s.toList ++ c :: rest) = false := by
    cases hs : s.toList with
    | nil => exact absurd hs h.ne_nil
    | cons n name =>
      have hn : ('%' == n) = false :=
        beq_false_of_ne (ne_of_isNameChar (h.nameChar n (by simp [hs])) (by decide)).symm
      rw [List.cons_append]
      simp [List.isPrefixOf, hn]
  have hstyling : ∀ w ∈ stylingWords.map (fun w => w.toList ++ [' ']),
      ¬ w.isPrefixOf (s.toList ++ c :: rest) = true := by
    intro w hw hpre
    obtain ⟨v, hv, rfl⟩ := List.mem_map.mp hw
    have hchars : ∀ v ∈ stylingWords, ∀ d ∈ v.toList, isNameChar d = true := by decide
    have := eq_of_isPrefixOf_blank (hchars v hv) h.nameChar hc hpre
    exact not_styling_of_isNodeName h (String.toList_inj.mp this ▸ hv)
  have hwords : (layoutWords.any fun w => w.toList.isPrefixOf (s.toList ++ c :: rest)) =
      "subgraph".toList.isPrefixOf (s.toList ++ c :: rest) := by
    have hmap : (layoutWords.any fun w => w.toList.isPrefixOf (s.toList ++ c :: rest)) =
        (layoutWords.map String.toList).any fun w => w.isPrefixOf (s.toList ++ c :: rest) := by
      rw [List.any_map]
      rfl
    rw [hmap, layoutWords_eq, List.any_cons, List.any_eq_false.mpr hstyling, Bool.or_false]
  rw [isLayout, hempty, hcomment, ne_end_of_name hc, hwords, isPrefixOf_name (by decide) hc]
  rfl

end AgentFlow.Flowchart
