import AgentFlow.Proofs.Text.Lines
import AgentFlow.Proofs.Text.Trim

/-!
# The end of the last line

The last line of a text differs from the others: it is missing if it is empty, and it keeps a
carriage return at its end.  What neither looks at an empty line at the end nor at a carriage return
there reads a text as if each of its lines were closed.

* `closedLines_intercalate_flatMap`: the closed lines of joined texts are those of each.
* `eq_closedLines`: **what overlooks the end of the last line reads the closed lines.**
* `lines_unlines_of_closed`: parts that are closed lines each are the lines of the text.
* `Closed.append`: a text that ends in one line is closed if the rest has no line feed.
* `wordsOf_dropReturn`, `trim_dropReturn`: words and trimmed texts overlook it.
-/

namespace AgentFlow.Text

/-! ### Closed lines of joined texts -/

theorem closedLines_append (as bs : List Char) :
    closedLines (as ++ '\n' :: bs) = closedLines as ++ closedLines bs := by
  rw [closedLines, List.splitOn_eq_splitOnP, List.splitOnP_append_cons _ _ (by decide),
    List.map_append]
  rfl

theorem closedLines_ne_nil (cs : List Char) : closedLines cs ≠ [] :=
  fun h => List.splitOn_ne_nil '\n' cs (List.map_eq_nil_iff.mp h)

theorem closedLines_of_not_mem {cs : List Char} (h : '\n' ∉ cs) :
    closedLines cs = [dropReturn cs] := by
  rw [closedLines, List.splitOn_eq_singleton h, List.map_singleton]

/-- The closed lines of joined texts are those of each. -/
theorem closedLines_intercalate_flatMap {ls : List String} (hne : ls ≠ []) :
    closedLines ("\n".intercalate ls).toList = ls.flatMap fun s => closedLines s.toList := by
  induction ls with
  | nil => exact absurd rfl hne
  | cons s rest ih =>
    cases rest with
    | nil => rw [String.intercalate_singleton, List.flatMap_singleton]
    | cons t more =>
      have hs : ("\n".intercalate (s :: t :: more)).toList =
          s.toList ++ '\n' :: ("\n".intercalate (t :: more)).toList := by
        rw [String.intercalate_cons_cons, String.toList_append, String.toList_append,
          List.append_assoc]
        rfl
      rw [hs, closedLines_append, ih (List.cons_ne_nil t more)]
      rfl

/-! ### The last line -/

/-- The lines of a text are its closed lines, but for the last one. -/
theorem linesOf_cases (cs : List Char) :
    ∃ init last, closedLines cs = init ++ [dropReturn last] ∧
      linesOf cs = init ++ if last.isEmpty then [] else [last] := by
  obtain ⟨init, last, hsplit⟩ :=
    (List.eq_nil_or_concat _).resolve_left (List.splitOn_ne_nil '\n' cs)
  rw [List.concat_eq_append] at hsplit
  refine ⟨init.map dropReturn, last, ?_, ?_⟩
  · rw [closedLines, hsplit, List.map_append, List.map_singleton]
  · rw [linesOf, splitWhere_eq_splitOnP, ← List.splitOn_eq_splitOnP, hsplit,
      closeLines_append (List.cons_ne_nil last []), closeLines]

/-- **What overlooks an empty line and a carriage return at the end reads the closed lines.** -/
theorem eq_closedLines {β : Type} {F : List (List Char) → β}
    (hreturn : ∀ init last, F (init ++ [dropReturn last]) = F (init ++ [last]))
    (hempty : ∀ init, F (init ++ [[]]) = F init) (cs : List Char) :
    F (linesOf cs) = F (closedLines cs) := by
  obtain ⟨init, last, hclosed, hlines⟩ := linesOf_cases cs
  rw [hclosed, hlines, hreturn]
  cases last with
  | nil => rw [hempty]; exact congrArg F (List.append_nil init)
  | cons c rest => rfl

/-! ### Carriage returns -/

/-- What overlooks a carriage return at the end reads a line as if there were none. -/
theorem eq_dropReturn {β : Type} {f : List Char → β} (h : ∀ cs, f (cs ++ ['\r']) = f cs)
    (cs : List Char) : f (dropReturn cs) = f cs := by
  unfold dropReturn
  split
  · next rest hr => rw [← h rest.reverse, ← List.reverse_cons, ← hr, List.reverse_reverse]
  · rfl

theorem trim_dropReturn (cs : List Char) :
    dropBlankEnd (dropBlank (dropReturn cs)) = dropBlankEnd (dropBlank cs) :=
  eq_dropReturn (f := fun cs => dropBlankEnd (dropBlank cs))
    (fun _ => dropBlankEnd_dropBlank_append (by decide)) cs

theorem wordsOf_dropReturn (cs : List Char) : wordsOf (dropReturn cs) = wordsOf cs := by
  refine eq_dropReturn (fun cs => ?_) cs
  rw [wordsOf, splitWhere_eq_splitOnP, List.splitOnP_append_cons _ _ (by decide),
    List.filter_append, wordsOf, splitWhere_eq_splitOnP]
  exact List.append_nil _

/-- Whether a line has ink does not depend on a carriage return at its end. -/
theorem any_dropReturn (cs : List Char) :
    (dropReturn cs).any (fun c => !isBlank c) = cs.any fun c => !isBlank c := by
  refine eq_dropReturn (f := fun cs => cs.any fun c => !isBlank c) (fun cs => ?_) cs
  rw [List.any_append]
  exact Bool.or_false _

/-! ### Parts that are closed lines -/

/-- The text is one line if a line feed follows. -/
def Closed (s : String) : Prop := closedLines s.toList = [s.toList]

theorem OneLine.closed {s : String} (h : OneLine s) : Closed s := closedLines_of_oneLine h

theorem dropReturn_append {as bs : List Char} (hne : bs ≠ []) (h : '\r' ∉ bs) :
    dropReturn (as ++ bs) = as ++ bs := by
  obtain ⟨init, c, rfl⟩ := (List.eq_nil_or_concat bs).resolve_left hne
  unfold dropReturn
  split
  · next rest hr =>
    rw [List.concat_eq_append, ← List.append_assoc, List.reverse_append] at hr
    obtain ⟨rfl, -⟩ := List.cons.inj hr
    exact absurd (by simp) h
  · rfl

/-- A text that ends in one line is closed if the rest has no line feed. -/
theorem Closed.append {s t : String} (hs : '\n' ∉ s.toList) (ht : OneLine t) (hne : t ≠ "") :
    Closed (s ++ t) := by
  have hnone : '\n' ∉ s.toList ++ t.toList := by
    rw [List.mem_append, not_or]
    exact ⟨hs, ht.1⟩
  rw [Closed, String.toList_append, closedLines_of_not_mem hnone,
    dropReturn_append (fun h => hne (String.toList_eq_nil_iff.mp h)) ht.2]

/-- Parts that are closed lines each are the lines of the text. -/
theorem lines_unlines_of_closed {parts : List String} (h : ∀ s ∈ parts, Closed s) :
    lines (unlines parts) = parts := by
  rw [lines, linesOf_unlines]
  induction parts with
  | nil => rfl
  | cons s rest ih =>
    rw [List.forall_mem_cons] at h
    rw [List.flatMap_cons, h.1, List.map_append, ih h.2, List.map_singleton, String.ofList_toList]
    rfl

end AgentFlow.Text
