import AgentFlow.Text.Blank

/-!
# Lines of written texts

Texts are written line by line and read back by `lines`.  A part that was written as one line need
not be one line: a free text may hold line feeds of its own.

* `linesOf_unlines`: the lines of a text are those of its parts, one part after the other.
* `lines_unlines`: they are the parts themselves if each of these is on one line.
* `linesOf_intercalate`: the same for parts with a line feed only between them.
* `intercalate_inj`: joined texts are told apart by their parts.
* `filterMap_lines_parts`: what is read from the lines of a file of parts is read part by part.
* `flatMap_eq_map_iff`: parts that are read as one piece or several are read as they are exactly if
  no part is read as several.
-/

namespace AgentFlow.Text

/-- What holds of the characters of a text is decided along the text, not along all characters. -/
instance (priority := high) decidableForallChar {p : Char → Prop} [DecidablePred p]
    (cs : List Char) : Decidable (∀ c ∈ cs, p c) :=
  List.decidableBAll p cs

/-- What holds of a character that may be missing is decided at that one. -/
instance (priority := high) decidableForallFirst {p : Char → Prop} [DecidablePred p]
    (o : Option Char) : Decidable (∀ c ∈ o, p c) :=
  Option.decidableForallMem o

instance (priority := high) decidableExistsFirst {p : Char → Prop} [DecidablePred p]
    (o : Option Char) : Decidable (∃ c ∈ o, p c) :=
  Option.decidableExistsMem o

theorem splitWhere_eq_splitOnP {α : Type} (p : α → Bool) (cs : List α) :
    splitWhere p cs = cs.splitOnP p := by
  induction cs with
  | nil => rfl
  | cons c rest ih =>
    rw [List.splitOnP_cons_eq_if_modifyHead, splitWhere, ih]
    by_cases hc : p c
    · rw [if_pos hc, if_pos hc]
    · rw [if_neg hc, if_neg hc]
      cases hs : rest.splitOnP p with
      | nil => exact absurd hs (List.splitOnP_ne_nil p rest)
      | cons piece more => rfl

/-! ### Closed lines -/

/-- The lines of a text that is followed by a line feed. -/
def closedLines (cs : List Char) : List (List Char) := (cs.splitOn '\n').map dropReturn

theorem closeLines_append {more : List (List Char)} (h : more ≠ []) (ls : List (List Char)) :
    closeLines (ls ++ more) = ls.map dropReturn ++ closeLines more := by
  induction ls with
  | nil => rfl
  | cons l rest ih =>
    cases hr : rest ++ more with
    | nil => exact absurd (List.append_eq_nil_iff.mp hr).2 h
    | cons x xs =>
      rw [List.cons_append, hr, closeLines, ← hr, ih, List.map_cons, List.cons_append]
      exact fun he => List.cons_ne_nil x xs he

theorem linesOf_append_newline (as bs : List Char) :
    linesOf (as ++ '\n' :: bs) = closedLines as ++ linesOf bs := by
  rw [linesOf, splitWhere_eq_splitOnP, List.splitOnP_append_cons _ _ (by decide),
    closeLines_append (List.splitOnP_ne_nil _ _), linesOf, splitWhere_eq_splitOnP]
  rfl

/-- **The lines of a text are those of its parts.** -/
theorem linesOf_unlines (parts : List String) :
    linesOf (unlines parts).toList = parts.flatMap fun s => closedLines s.toList := by
  induction parts with
  | nil => rfl
  | cons s rest ih =>
    have hs : (unlines (s :: rest)).toList = s.toList ++ '\n' :: (unlines rest).toList := by
      simp [unlines, String.toList_join]
    rw [hs, linesOf_append_newline, ih, List.flatMap_cons]

/-! ### Characters of joined texts -/

theorem mem_intercalate_of_mem {sep : String} {ls : List String} {l : String} (hl : l ∈ ls)
    {c : Char} (hc : c ∈ l.toList) : c ∈ (sep.intercalate ls).toList := by
  induction ls with
  | nil => exact absurd hl List.not_mem_nil
  | cons x rest ih =>
    cases rest with
    | nil => rwa [String.intercalate_singleton, ← List.mem_singleton.mp hl]
    | cons y more =>
      rw [String.intercalate_cons_cons, String.toList_append, String.toList_append,
        List.append_assoc]
      rcases List.mem_cons.mp hl with rfl | hl
      · exact List.mem_append_left _ hc
      · exact List.mem_append_right _ (List.mem_append_right _ (ih hl))

theorem mem_of_mem_intercalate {sep : String} {ls : List String} {c : Char}
    (h : c ∈ (sep.intercalate ls).toList) : c ∈ sep.toList ∨ ∃ l ∈ ls, c ∈ l.toList := by
  induction ls with
  | nil => rw [String.intercalate_nil] at h; exact absurd h List.not_mem_nil
  | cons x rest ih =>
    cases rest with
    | nil =>
      rw [String.intercalate_singleton] at h
      exact .inr ⟨x, List.mem_cons_self, h⟩
    | cons y more =>
      rw [String.intercalate_cons_cons, String.toList_append, String.toList_append,
        List.append_assoc, List.mem_append, List.mem_append] at h
      rcases h with h | h | h
      · exact .inr ⟨x, List.mem_cons_self, h⟩
      · exact .inl h
      · rcases ih h with hs | ⟨l, hl, hc⟩
        · exact .inl hs
        · exact .inr ⟨l, List.mem_cons_of_mem x hl, hc⟩

/-! ### Texts on one line -/

/-- The text has no line break, neither a line feed nor a carriage return. -/
def OneLine (s : String) : Prop := '\n' ∉ s.toList ∧ '\r' ∉ s.toList

instance (s : String) : Decidable (OneLine s) := inferInstanceAs (Decidable (_ ∧ _))

theorem oneLine_iff {s : String} : OneLine s ↔ ∀ c ∈ s.toList, c ≠ '\n' ∧ c ≠ '\r' := by
  constructor
  · rintro ⟨hn, hr⟩ c hc
    exact ⟨fun he => hn (he ▸ hc), fun he => hr (he ▸ hc)⟩
  · intro h
    exact ⟨fun hn => (h _ hn).1 rfl, fun hr => (h _ hr).2 rfl⟩

/-- A text that is written out is on one line if its characters say so. -/
theorem oneLine_ofList {cs : List Char} (h : cs.all (fun c => c != '\n' && c != '\r') = true) :
    OneLine (String.ofList cs) := by
  rw [oneLine_iff, String.toList_ofList]
  simpa using h

@[simp] theorem oneLine_append {s t : String} : OneLine (s ++ t) ↔ OneLine s ∧ OneLine t := by
  simp only [oneLine_iff, String.toList_append, List.forall_mem_append]

theorem oneLine_intercalate {sep : String} {ls : List String} (hsep : OneLine sep)
    (h : ∀ l ∈ ls, OneLine l) : OneLine (sep.intercalate ls) := by
  rw [oneLine_iff] at hsep ⊢
  intro c hc
  rcases mem_of_mem_intercalate hc with hs | ⟨l, hl, hcl⟩
  · exact hsep c hs
  · exact oneLine_iff.mp (h l hl) c hcl

theorem dropReturn_of_not_mem {cs : List Char} (h : '\r' ∉ cs) : dropReturn cs = cs := by
  unfold dropReturn
  split
  · next rest hr =>
    have : '\r' ∈ cs.reverse := by rw [hr]; exact List.mem_cons_self
    exact absurd (List.mem_reverse.mp this) h
  · rfl

theorem closedLines_of_oneLine {s : String} (h : OneLine s) :
    closedLines s.toList = [s.toList] := by
  rw [closedLines, List.splitOn_eq_singleton h.1, List.map_singleton, dropReturn_of_not_mem h.2]

theorem flatMap_closedLines {parts : List String} (h : ∀ s ∈ parts, OneLine s) :
    parts.flatMap (fun s => closedLines s.toList) = parts.map String.toList := by
  induction parts with
  | nil => rfl
  | cons s rest ih =>
    rw [List.forall_mem_cons] at h
    rw [List.flatMap_cons, closedLines_of_oneLine h.1, ih h.2, List.map_cons, List.singleton_append]

/-- Parts on one line each are the lines of the text. -/
theorem lines_unlines {parts : List String} (h : ∀ s ∈ parts, OneLine s) :
    lines (unlines parts) = parts := by
  rw [lines, linesOf_unlines, flatMap_closedLines h, List.map_map]
  exact (List.map_congr_left fun s _ => String.ofList_toList).trans (List.map_id _)

/-- **What is read from a file of parts with two blank lines before each is read part by part.** -/
theorem filterMap_lines_parts {α β : Type} {read : String → Option β} (hblank : read "" = none)
    {head : List String} {f : α → List String} {g : α → List β} {xs : List α}
    (hhead : ∀ l ∈ head, OneLine l)
    (h : ∀ x ∈ xs, (∀ l ∈ f x, OneLine l) ∧ (f x).filterMap read = g x) :
    (lines (unlines (head ++ xs.flatMap fun x => ["", ""] ++ f x))).filterMap read =
      head.filterMap read ++ xs.flatMap g := by
  have hblanks : ∀ l ∈ ["", ""], OneLine l := by decide
  have hparts : ∀ l ∈ xs.flatMap fun x => ["", ""] ++ f x, OneLine l := by
    intro l hl
    obtain ⟨x, hx, hl⟩ := List.mem_flatMap.mp hl
    rcases List.mem_append.mp hl with hl | hl
    · exact hblanks l hl
    · exact (h x hx).1 l hl
  have hread : ∀ x ∈ xs, (["", ""] ++ f x).filterMap read = g x := by
    intro x hx
    rw [List.filterMap_append, List.filterMap_cons_none hblank, List.filterMap_cons_none hblank,
      List.filterMap_nil, List.nil_append, (h x hx).2]
  rw [lines_unlines (List.forall_mem_append.mpr ⟨hhead, hparts⟩), List.filterMap_append,
    List.filterMap_flatMap]
  exact congrArg (_ ++ List.flatten ·) (List.map_congr_left hread)

/-! ### Parts with a line feed between them -/

theorem splitOn_intercalate {parts : List String} (hne : parts ≠ [])
    (h : ∀ s ∈ parts, OneLine s) :
    ("\n".intercalate parts).toList.splitOn '\n' = parts.map String.toList := by
  rw [String.toList_intercalate]
  refine List.splitOn_intercalate '\n' ?_ (by simpa using hne)
  intro l hl
  obtain ⟨s, hs, rfl⟩ := List.mem_map.mp hl
  exact (h s hs).1

theorem closedLines_intercalate {parts : List String} (hne : parts ≠ [])
    (h : ∀ s ∈ parts, OneLine s) :
    closedLines ("\n".intercalate parts).toList = parts.map String.toList := by
  rw [closedLines, splitOn_intercalate hne h, List.map_map]
  exact List.map_congr_left fun s hs => dropReturn_of_not_mem (h s hs).2

theorem closeLines_of_ne_nil {ls : List (List Char)} (hr : ∀ l ∈ ls, '\r' ∉ l)
    (hlast : ∀ l ∈ ls.getLast?, l ≠ []) : closeLines ls = ls := by
  induction ls with
  | nil => rfl
  | cons l rest ih =>
    rw [List.forall_mem_cons] at hr
    cases rest with
    | nil =>
      have : l ≠ [] := hlast l rfl
      rw [closeLines, if_neg (by simpa using this)]
    | cons l' more =>
      rw [closeLines, dropReturn_of_not_mem hr.1, ih hr.2 (by simpa using hlast)]
      exact fun he => List.cons_ne_nil l' more he

/-- Parts on one line each, the last of which is not empty, are the lines of the text. -/
theorem linesOf_intercalate {parts : List String} (h : ∀ s ∈ parts, OneLine s)
    (hlast : ∀ s ∈ parts.getLast?, s ≠ "") :
    linesOf ("\n".intercalate parts).toList = parts.map String.toList := by
  by_cases hne : parts = []
  · subst hne; rw [String.intercalate_nil]; rfl
  · have hsplit : splitWhere (· == '\n') ("\n".intercalate parts).toList
        = parts.map String.toList := by
      rw [splitWhere_eq_splitOnP, ← List.splitOn_eq_splitOnP, splitOn_intercalate hne h]
    rw [linesOf, hsplit]
    refine closeLines_of_ne_nil (fun l hl => ?_) (fun l hl => ?_)
    · obtain ⟨s, hs, rfl⟩ := List.mem_map.mp hl
      exact (h s hs).2
    · rw [List.getLast?_map, Option.mem_def, Option.map_eq_some_iff] at hl
      obtain ⟨s, hs, rfl⟩ := hl
      intro he
      exact hlast s hs (String.toList_eq_nil_iff.mp he)

/-! ### Pieces of a text inside a line -/

theorem pieces_newline (s : String) :
    pieces (· == '\n') s = (s.toList.splitOn '\n').map String.ofList := by
  rw [pieces, splitWhere_eq_splitOnP, ← List.splitOn_eq_splitOnP]

/-- A text without line feeds goes into the first piece of the text after it. -/
theorem splitOn_append_left {as : List Char} (h : '\n' ∉ as) (cs : List Char) :
    ∃ first rest, cs.splitOn '\n' = first :: rest ∧
      (as ++ cs).splitOn '\n' = (as ++ first) :: rest := by
  induction as with
  | nil =>
    obtain ⟨first, rest, hcs⟩ := List.exists_cons_of_ne_nil (List.splitOn_ne_nil '\n' cs)
    exact ⟨first, rest, hcs, hcs⟩
  | cons a as ih =>
    rw [List.mem_cons, not_or] at h
    have ha : ¬ (a == '\n') = true := by simpa using Ne.symm h.1
    obtain ⟨first, rest, hcs, has⟩ := ih h.2
    refine ⟨first, rest, hcs, ?_⟩
    rw [List.splitOn_eq_splitOnP] at has ⊢
    rw [List.cons_append, List.splitOnP_cons_eq_if_modifyHead, if_neg ha, has]
    rfl

/-- A text without line feeds goes into the last piece of the text before it. -/
theorem splitOn_append_right {bs : List Char} (h : '\n' ∉ bs) (cs : List Char) :
    ∃ init last, cs.splitOn '\n' = init ++ [last] ∧
      (cs ++ bs).splitOn '\n' = init ++ [last ++ bs] := by
  induction cs with
  | nil => exact ⟨[], [], List.splitOn_eq_singleton List.not_mem_nil, List.splitOn_eq_singleton h⟩
  | cons c cs ih =>
    obtain ⟨init, last, hcs, hbs⟩ := ih
    rw [List.splitOn_eq_splitOnP] at hcs hbs ⊢
    rw [List.splitOn_eq_splitOnP, List.cons_append, List.splitOnP_cons_eq_if_modifyHead,
      List.splitOnP_cons_eq_if_modifyHead, hcs, hbs]
    split
    · exact ⟨[] :: init, last, rfl, rfl⟩
    · cases init with
      | nil => exact ⟨[], c :: last, rfl, rfl⟩
      | cons i init => exact ⟨(c :: i) :: init, last, rfl, rfl⟩

/-- Texts without the separator, joined by it, are told apart by their parts. -/
theorem intercalate_inj {α : Type} [DecidableEq α] {x : α} {as bs : List (List α)}
    (has : ∀ l ∈ as, x ∉ l) (hbs : ∀ l ∈ bs, x ∉ l) (hane : as ≠ []) (hbne : bs ≠ []) :
    [x].intercalate as = [x].intercalate bs ↔ as = bs := by
  refine ⟨fun h => ?_, congrArg _⟩
  rw [← List.splitOn_intercalate x has hane, h, List.splitOn_intercalate x hbs hbne]

/-! ### Parts that are one piece or several -/

theorem modifyHead_append {α : Type} {xs : List α} (h : xs ≠ []) (f : α → α) (ys : List α) :
    (xs ++ ys).modifyHead f = xs.modifyHead f ++ ys := by
  cases xs with
  | nil => exact absurd rfl h
  | cons x xs => rfl

/-- Each part is read as one piece, which is `g` of it, or as several.  The pieces are those of the
parts exactly if there are not more of them. -/
theorem flatMap_eq_map_iff {α β : Type} {f : α → List β} {g : α → β} {xs : List α}
    (h : ∀ x ∈ xs, f x = [g x] ∨ 1 < (f x).length) :
    xs.length ≤ (xs.flatMap f).length ∧
      (xs.flatMap f = xs.map g ↔ ∀ x ∈ xs, f x = [g x]) ∧
      ((∃ x ∈ xs, f x ≠ [g x]) → xs.length < (xs.flatMap f).length) := by
  induction xs with
  | nil => simp
  | cons x xs ih =>
    rw [List.forall_mem_cons] at h
    obtain ⟨hle, heq, hlt⟩ := ih h.2
    rw [List.flatMap_cons, List.length_append, List.length_cons, List.map_cons,
      List.forall_mem_cons]
    rcases h.1 with hone | hmore
    · rw [hone, List.length_singleton, List.singleton_append]
      refine ⟨by omega, ?_, ?_⟩
      · rw [List.cons.injEq, heq]
        simp
      · rintro ⟨y, hy, hne⟩
        rcases List.mem_cons.mp hy with rfl | hy
        · exact absurd hone hne
        · have := hlt ⟨y, hy, hne⟩
          omega
    · have hne : f x ≠ [g x] := by
        intro he
        rw [he] at hmore
        exact absurd hmore (by simp)
      refine ⟨by omega, ?_, fun _ => by omega⟩
      refine iff_of_false (fun he => ?_) fun hall => hne hall.1
      have hlength := congrArg List.length he
      simp only [List.length_append, List.length_cons, List.length_map] at hlength
      omega

end AgentFlow.Text
