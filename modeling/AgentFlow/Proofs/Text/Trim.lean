import AgentFlow.Text.Blank

/-!
# Trimming texts with a solid core

A text is solid if it neither starts nor ends with a blank.  Trimming takes the blanks around a
solid text away and leaves the text as it is.

* `Solid.append`: what starts and ends with a solid text is solid.
* `Solid.trim_eq`: **what is left of a solid text between blanks is the text.**
-/

namespace AgentFlow.Text

/-- There are characters, and neither the first nor the last of them is a blank. -/
structure Solid (cs : List Char) : Prop where
  ne_nil : cs ≠ []
  head : ∀ c ∈ cs.head?, isBlank c = false
  last : ∀ c ∈ cs.getLast?, isBlank c = false

theorem solid_of_not_isBlank {cs : List Char} (hne : cs ≠ [])
    (h : ∀ c ∈ cs, isBlank c = false) : Solid cs where
  ne_nil := hne
  head := fun c hc => h c (List.mem_of_mem_head? hc)
  last := fun c hc => h c (List.mem_of_getLast? hc)

theorem Solid.head_append {as : List Char} (h : Solid as) (bs : List Char) :
    ∀ c ∈ (as ++ bs).head?, isBlank c = false := by
  intro c hc
  rw [List.head?_append, List.head?_eq_some_head h.ne_nil] at hc
  exact h.head c ((List.head?_eq_some_head h.ne_nil).trans hc)

/-- What starts with a solid text and ends with one is solid. -/
theorem Solid.append {as bs : List Char} (ha : Solid as) (hb : Solid bs) (middle : List Char) :
    Solid (as ++ (middle ++ bs)) where
  ne_nil := List.append_ne_nil_of_left_ne_nil ha.ne_nil _
  head := ha.head_append _
  last := by
    intro c hc
    rw [List.getLast?_append, List.getLast?_append, List.getLast?_eq_some_getLast hb.ne_nil] at hc
    exact hb.last c ((List.getLast?_eq_some_getLast hb.ne_nil).trans hc)

/-! ### Trimming -/

theorem dropBlank_append {blanks cs : List Char} (h : ∀ c ∈ blanks, isBlank c = true) :
    dropBlank (blanks ++ cs) = dropBlank cs :=
  List.dropWhile_append_of_pos h

theorem dropBlank_of_head {cs : List Char} (h : ∀ c ∈ cs.head?, isBlank c = false) :
    dropBlank cs = cs := by
  cases cs with
  | nil => rfl
  | cons c rest =>
    have hc : isBlank c = false := h c rfl
    exact List.dropWhile_cons_of_neg (by rw [hc]; exact Bool.false_ne_true)

theorem dropBlankEnd_append {blanks cs : List Char} (h : ∀ c ∈ blanks, isBlank c = true) :
    dropBlankEnd (cs ++ blanks) = dropBlankEnd cs := by
  have hrev : ∀ c ∈ blanks.reverse, isBlank c = true := fun c hc => h c (List.mem_reverse.mp hc)
  rw [dropBlankEnd, List.reverse_append, dropBlank_append hrev, dropBlankEnd]

theorem dropBlankEnd_of_last {cs : List Char} (h : ∀ c ∈ cs.getLast?, isBlank c = false) :
    dropBlankEnd cs = cs := by
  have hhead : ∀ c ∈ cs.reverse.head?, isBlank c = false := by rwa [List.head?_reverse]
  rw [dropBlankEnd, dropBlank_of_head hhead, List.reverse_reverse]

/-- **Trimming leaves a solid text as it is, without the blanks around it.** -/
theorem Solid.trim_eq {cs before after : List Char} (h : Solid cs)
    (hbefore : ∀ c ∈ before, isBlank c = true) (hafter : ∀ c ∈ after, isBlank c = true) :
    dropBlankEnd (dropBlank (before ++ (cs ++ after))) = cs := by
  rw [dropBlank_append hbefore, dropBlank_of_head (h.head_append after),
    dropBlankEnd_append hafter, dropBlankEnd_of_last h.last]

theorem dropBlankEnd_dropBlank_append {cs blanks : List Char}
    (h : ∀ c ∈ blanks, isBlank c = true) :
    dropBlankEnd (dropBlank (cs ++ blanks)) = dropBlankEnd (dropBlank cs) := by
  induction cs with
  | nil =>
    have hnil : dropBlank blanks = [] := (dropBlank_eq_nil_iff blanks).mpr h
    rw [List.nil_append, hnil]
    rfl
  | cons c rest ih =>
    by_cases hc : isBlank c = true
    · rw [List.cons_append, dropBlank, dropBlank, List.dropWhile_cons_of_pos hc,
        List.dropWhile_cons_of_pos hc]
      exact ih
    · rw [List.cons_append, dropBlank, dropBlank, List.dropWhile_cons_of_neg hc,
        List.dropWhile_cons_of_neg hc, ← List.cons_append, dropBlankEnd_append h]

/-- A text is what is left of it between blanks. -/
theorem exists_blanks (s : String) : ∃ before after : List Char,
    (∀ c ∈ before, isBlank c = true) ∧ (∀ c ∈ after, isBlank c = true) ∧
      s.toList = before ++ ((trim s).toList ++ after) := by
  refine ⟨s.toList.takeWhile isBlank,
    ((dropBlank s.toList).reverse.takeWhile isBlank).reverse, fun c hc => ?_, fun c hc => ?_, ?_⟩
  · exact List.all_eq_true.mp List.all_takeWhile c hc
  · exact List.all_eq_true.mp List.all_takeWhile c (List.mem_reverse.mp hc)
  · rw [trim, String.toList_ofList, dropBlankEnd, dropBlank, ← List.reverse_append,
      List.takeWhile_append_dropWhile, List.reverse_reverse, dropBlank,
      List.takeWhile_append_dropWhile]

/-- Trimming takes blanks only. -/
theorem filter_trim (s : String) :
    (trim s).toList.filter (fun c => !isBlank c) = s.toList.filter fun c => !isBlank c := by
  have hnil : ∀ {cs : List Char}, (∀ c ∈ cs, isBlank c = true) →
      cs.filter (fun c => !isBlank c) = [] := by
    intro cs h
    exact List.filter_eq_nil_iff.mpr fun c hc => by rw [h c hc]; exact Bool.false_ne_true
  obtain ⟨before, after, hbefore, hafter, hs⟩ := exists_blanks s
  rw [hs, List.filter_append, List.filter_append, hnil hbefore, hnil hafter, List.nil_append,
    List.append_nil]

theorem hasInk_trim (s : String) : hasInk (trim s) = hasInk s := by
  have hany : ∀ cs : List Char, (cs.any fun c => !isBlank c) =
      (cs.filter fun c => !isBlank c).any fun c => !isBlank c := by
    intro cs
    rw [List.any_filter]
    simp only [Bool.and_self]
  rw [hasInk, hasInk, hany, hany s.toList, filter_trim]

end AgentFlow.Text
