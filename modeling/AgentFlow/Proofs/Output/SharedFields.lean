import AgentFlow.Output.Interface
import AgentFlow.Proofs.Output.OneLine
import Mathlib.Data.List.Forall2

/-!
# The fields of shared values

The file of data models states each value that nodes share in a line of its own.  Its name is
checked, but its type is written as it is, without the blanks around it.  This file reads the lines
of the class back and says when they are the lines of the fields.

* `sourceLines`: the lines of a text, however they end.
* `sourceLines_append_newline`, `sourceLines_unlines`: **the lines of a text are those of its
  parts.**
* `storeBody`: the lines of the class of shared values.
* `storeBody_modelsFile`: they are the lines of the fields.
* `sharedFields_iff`: there is one line for each key exactly if no type has a line break.
-/

namespace AgentFlow

open Text Output

/-! ### Lines of source text -/

/-- The lines of a text, each of which ends with a line feed, a carriage return or both. -/
def sourceLines : List Char → List (List Char)
  | [] => [[]]
  | c :: rest =>
    if c = '\n' ∨ (c = '\r' ∧ rest.head? ≠ some '\n') then [] :: sourceLines rest
    else if c = '\r' then sourceLines rest
    else (sourceLines rest).modifyHead (c :: ·)

example : sourceLines "a\r\n\rb\n".toList = ["a".toList, [], "b".toList, []] := by decide

variable {as bs cs : List Char} {c : Char}

theorem sourceLines_ne_nil (cs : List Char) : sourceLines cs ≠ [] := by
  induction cs with
  | nil => exact List.cons_ne_nil _ _
  | cons c rest ih =>
    rw [sourceLines]
    split
    · exact List.cons_ne_nil _ _
    · split
      · exact ih
      · obtain ⟨l, more, hlines⟩ := List.exists_cons_of_ne_nil ih
        rw [hlines]
        exact List.cons_ne_nil _ _

/-- A character that ends no line belongs to the first line after it. -/
theorem sourceLines_cons (h : c ≠ '\n' ∧ c ≠ '\r') (cs : List Char) :
    sourceLines (c :: cs) = (sourceLines cs).modifyHead (c :: ·) := by
  have hends : ¬ (c = '\n' ∨ (c = '\r' ∧ cs.head? ≠ some '\n')) := by
    rintro (hc | hc)
    · exact h.1 hc
    · exact h.2 hc.1
  rw [sourceLines, if_neg hends, if_neg h.2]

/-- **A line feed ends the lines before it**, unless it belongs to a carriage return. -/
theorem sourceLines_append_newline (h : as.getLast? ≠ some '\r') (bs : List Char) :
    sourceLines (as ++ '\n' :: bs) = sourceLines as ++ sourceLines bs := by
  induction as with
  | nil => rfl
  | cons a as ih =>
    cases as with
    | nil =>
      have ha : a ≠ '\r' := fun he => h (by rw [he]; rfl)
      by_cases hfeed : a = '\n'
      · subst hfeed
        rfl
      · rw [List.cons_append, sourceLines_cons ⟨hfeed, ha⟩, sourceLines_cons ⟨hfeed, ha⟩]
        rfl
    | cons b more =>
      have hlast : (b :: more).getLast? ≠ some '\r' := by rwa [List.getLast?_cons_cons] at h
      have hlines := ih hlast
      have hhead : ((b :: more) ++ '\n' :: bs).head? = (b :: more).head? := rfl
      rw [List.cons_append, sourceLines, sourceLines, hhead, hlines]
      split
      · rfl
      · split
        · rfl
        · exact modifyHead_append (sourceLines_ne_nil _) _ _

/-- A text without line breaks is one line. -/
theorem sourceLines_of_oneLine {s : String} (h : OneLine s) :
    sourceLines s.toList = [s.toList] := by
  rw [oneLine_iff] at h
  generalize s.toList = cs at h ⊢
  induction cs with
  | nil => rfl
  | cons c cs ih =>
    rw [List.forall_mem_cons] at h
    rw [sourceLines_cons h.1, ih h.2]
    rfl

/-- A text with a line break is more than one line. -/
theorem one_lt_length_sourceLines {s : String} (h : ¬ OneLine s) :
    1 < (sourceLines s.toList).length := by
  rw [oneLine_iff] at h
  generalize s.toList = cs at h ⊢
  induction cs with
  | nil => exact absurd (fun c hc => absurd hc List.not_mem_nil) h
  | cons c cs ih =>
    rw [sourceLines]
    by_cases hends : c = '\n' ∨ (c = '\r' ∧ cs.head? ≠ some '\n')
    · have hpos := List.length_pos_iff.mpr (sourceLines_ne_nil cs)
      rw [if_pos hends, List.length_cons]
      omega
    · rw [if_neg hends]
      obtain ⟨hfeed, hlone⟩ := not_or.mp hends
      by_cases hreturn : c = '\r'
      · -- The carriage return belongs to the line feed after it, which ends a line.
        have hnext : cs.head? = some '\n' :=
          Decidable.byContradiction fun hne => hlone ⟨hreturn, hne⟩
        rw [if_pos hreturn]
        refine ih fun hall => ?_
        exact (hall '\n' (List.mem_of_head? hnext)).1 rfl
      · rw [if_neg hreturn, List.length_modifyHead]
        refine ih fun hall => ?_
        exact h (List.forall_mem_cons.mpr ⟨⟨hfeed, hreturn⟩, hall⟩)

/-- **The lines of a written text are those of its parts**, and what is after the last line end. -/
theorem sourceLines_unlines {parts : List String}
    (h : ∀ s ∈ parts, s.toList.getLast? ≠ some '\r') :
    sourceLines (unlines parts).toList =
      (parts.flatMap fun s => sourceLines s.toList) ++ [[]] := by
  induction parts with
  | nil => rfl
  | cons s rest ih =>
    rw [List.forall_mem_cons] at h
    have hs : (unlines (s :: rest)).toList = s.toList ++ '\n' :: (unlines rest).toList := by
      simp [unlines, String.toList_join]
    rw [hs, sourceLines_append_newline h.1, ih h.2, List.flatMap_cons, List.append_assoc]

def sourceParts (s : String) : List String := (sourceLines s.toList).map String.ofList

theorem sourceParts_of_oneLine {s : String} (h : OneLine s) : sourceParts s = [s] := by
  rw [sourceParts, sourceLines_of_oneLine h, List.map_singleton, String.ofList_toList]

/-- A text is one line, or there are more. -/
theorem sourceParts_cases (s : String) : sourceParts s = [s] ∨ 1 < (sourceParts s).length := by
  by_cases h : OneLine s
  · exact .inl (sourceParts_of_oneLine h)
  · exact .inr (by rw [sourceParts, List.length_map]; exact one_lt_length_sourceLines h)

theorem sourceParts_eq_singleton_iff {s : String} : sourceParts s = [s] ↔ OneLine s := by
  refine ⟨fun h => ?_, sourceParts_of_oneLine⟩
  refine Decidable.byContradiction fun hbreak => ?_
  have hmore := one_lt_length_sourceLines hbreak
  have hlength := congrArg List.length h
  rw [sourceParts, List.length_map, List.length_singleton] at hlength
  omega

theorem flatMap_sourceParts {parts : List String} (h : ∀ s ∈ parts, OneLine s) :
    parts.flatMap sourceParts = parts := by
  induction parts with
  | nil => rfl
  | cons s rest ih =>
    rw [List.forall_mem_cons] at h
    rw [List.flatMap_cons, sourceParts_of_oneLine h.1, ih h.2, List.singleton_append]

theorem getLast?_of_oneLine {s : String} (h : OneLine s) : s.toList.getLast? ≠ some '\r' :=
  fun hlast => h.2 (List.mem_of_getLast? hlast)

theorem sourceParts_unlines {parts : List String}
    (h : ∀ s ∈ parts, s.toList.getLast? ≠ some '\r') :
    sourceParts (unlines parts) = parts.flatMap sourceParts ++ [""] := by
  rw [sourceParts, sourceLines_unlines h, List.map_append, List.map_flatMap]
  rfl

/-! ### The class of shared values -/

def storeHead : String := "class SharedStore(BaseModel):"

def requestHead : String := "class WorkflowRequest(BaseModel):"

def linesBetween (first last : String) (ls : List String) : List String :=
  ((((ls.dropWhile (· != first)).drop 1).reverse.dropWhile (· != last)).drop 1).reverse

/-- The lines of the class of shared values, apart from its documentation and the blank line after
that, and from the two blank lines before the next class. -/
def storeBody (file : String) : List String :=
  ((linesBetween storeHead requestHead (sourceParts file)).drop 2).dropLast.dropLast

theorem linesBetween_eq {first last : String} {before body after : List String}
    (hbefore : ∀ l ∈ before, l ≠ first) (hafter : ∀ l ∈ after, l ≠ last) :
    linesBetween first last (before ++ first :: (body ++ last :: after)) = body := by
  have hb : ∀ l ∈ before, (l != first) = true := fun l hl => bne_iff_ne.mpr (hbefore l hl)
  have ha : ∀ l ∈ after.reverse, (l != last) = true := fun l hl =>
    bne_iff_ne.mpr (hafter l (List.mem_reverse.mp hl))
  rw [linesBetween, List.dropWhile_append_of_pos hb, List.dropWhile_cons_of_neg (by simp),
    List.drop_succ_cons, List.drop_zero, List.reverse_append, List.reverse_cons, List.append_assoc,
    List.dropWhile_append_of_pos ha, List.singleton_append, List.dropWhile_cons_of_neg (by simp),
    List.drop_succ_cons, List.drop_zero, List.reverse_reverse]

/-- The line states a field with the name. -/
def StatesField (name line : String) : Prop := ∃ rest, line = "    " ++ name ++ ":" ++ rest

/-- The line of a field ends with its default. -/
theorem fieldLine_eq (e : String × String) : ∃ type,
    fieldLine e = "    " ++ e.1 ++ ":" ++ type ++ " = None" ∧
      (OneLine type ↔ OneLine (trim e.2)) := by
  rw [fieldLine]
  split
  · next hplain =>
    refine ⟨" Any", by simp [String.append_assoc], iff_of_true (by decide) ?_⟩
    rw [Bool.or_eq_true, String.isEmpty_iff, beq_iff_eq] at hplain
    rcases hplain with hempty | hany
    · rw [hempty]
      decide
    · rw [hany]
      decide
  · refine ⟨" Optional[" ++ trim e.2 ++ "]", ?_, ?_⟩
    · rw [← String.toList_inj]
      simp
    · have hopen : OneLine " Optional[" := by decide
      have hclose : OneLine "]" := by decide
      simp only [oneLine_append, hopen, hclose, true_and, and_true]

theorem statesField_fieldLine (e : String × String) : StatesField e.1 (fieldLine e) := by
  obtain ⟨type, hline, -⟩ := fieldLine_eq e
  exact ⟨type ++ " = None", by rw [hline, String.append_assoc]⟩

/-- The line of a field is one line exactly if its type is. -/
theorem oneLine_fieldLine_iff {e : String × String} (h : OneLine e.1) :
    OneLine (fieldLine e) ↔ OneLine (trim e.2) := by
  obtain ⟨type, hline, htype⟩ := fieldLine_eq e
  have hindent : OneLine "    " := by decide
  have hcolon : OneLine ":" := by decide
  have hdefault : OneLine " = None" := by decide
  rw [hline]
  simp only [oneLine_append, hindent, h, hcolon, hdefault, htype, true_and, and_true]

theorem getLast?_fieldLine (e : String × String) : (fieldLine e).toList.getLast? ≠ some '\r' := by
  obtain ⟨type, hline, -⟩ := fieldLine_eq e
  have hdefault : " = None".toList.getLast? = some 'e' := rfl
  rw [hline, String.toList_append, List.getLast?_append, hdefault, Option.some_or]
  decide

namespace WorkflowSpec

variable {w : WorkflowSpec}

/-- The lines of data models before the class of shared values. -/
def modelsHead (w : WorkflowSpec) : List String :=
  [docString ("Data models for " ++ docText w.name ++ "."), "", "from typing import Any, Optional",
    "", "from pydantic import BaseModel, Field", "", ""]

def modelsTail : List String :=
  ["    input: Any = Field(..., description=\"Workflow input\")", "", "",
    "class WorkflowResponse(BaseModel):", "    output: Any = None",
    "    error: Optional[str] = None"]

/-- The documentation of the class of shared values and the blank line after it. -/
def storeNote : List String :=
  ["    \"\"\"Values exchanged between nodes through the shared store.\"\"\"", ""]

theorem modelsFile_eq (w : WorkflowSpec) : w.modelsFile = unlines (w.modelsHead ++ storeHead ::
    (storeNote ++ w.storeLines ++ ["", ""] ++ requestHead :: modelsTail)) := by
  simp [modelsFile, modelsHead, modelsTail, storeNote, storeHead, requestHead]

theorem oneLine_modelsHead : ∀ l ∈ w.modelsHead, OneLine l := by
  simp only [modelsHead, docString, List.forall_mem_cons, List.not_mem_nil, false_imp_iff,
    implies_true, oneLine_append, oneLine_docText, and_true, and_assoc]
  repeat refine ⟨oneLine_ofList (by decide), ?_⟩
  exact oneLine_ofList (by decide)

theorem modelsHead_ne : ∀ l ∈ w.modelsHead, l ≠ storeHead := by
  simp only [modelsHead, docString, List.forall_mem_cons, storeHead]
  refine ⟨?_, by decide, by decide, by decide, by decide, by decide, by decide,
    fun l hl => absurd hl List.not_mem_nil⟩
  simp [← String.toList_inj]

/-- **The lines of the class are those of its fields.** -/
theorem storeBody_modelsFile (hne : w.sharedStore.entries ≠ []) :
    storeBody w.modelsFile = w.sharedStore.entries.flatMap fun e => sourceParts (fieldLine e) := by
  have hstore : w.storeLines = w.sharedStore.entries.map fieldLine := by
    rw [storeLines, if_neg]
    rwa [Data.SortedMap.isEmpty, List.isEmpty_iff]
  have hlast : ∀ s ∈ w.modelsHead ++ storeHead ::
      (storeNote ++ w.storeLines ++ ["", ""] ++ requestHead :: modelsTail),
      s.toList.getLast? ≠ some '\r' := by
    simp only [List.forall_mem_append, List.forall_mem_cons]
    refine ⟨fun s hs => getLast?_of_oneLine (oneLine_modelsHead s hs), by decide,
      ⟨⟨by decide, ?_⟩, by decide⟩, by decide, by decide⟩
    rw [hstore, List.forall_mem_map]
    exact fun e _ => getLast?_fieldLine e
  have hnote : storeNote.flatMap sourceParts = storeNote := flatMap_sourceParts (by decide)
  have hblank : ["", ""].flatMap sourceParts = ["", ""] := flatMap_sourceParts (by decide)
  have htail : modelsTail.flatMap sourceParts = modelsTail := flatMap_sourceParts (by decide)
  have hhead : sourceParts storeHead = [storeHead] := sourceParts_of_oneLine (by decide)
  have hnext : sourceParts requestHead = [requestHead] := sourceParts_of_oneLine (by decide)
  have hparts : sourceParts w.modelsFile = w.modelsHead ++ storeHead ::
      ((storeNote ++ (w.sharedStore.entries.flatMap fun e => sourceParts (fieldLine e)) ++
        ["", ""]) ++ requestHead :: (modelsTail ++ [""])) := by
    rw [modelsFile_eq, sourceParts_unlines hlast, hstore, List.flatMap_append,
      flatMap_sourceParts oneLine_modelsHead, List.flatMap_cons, hhead, List.flatMap_append,
      List.flatMap_append, List.flatMap_append, hnote, List.flatMap_map, hblank, List.flatMap_cons,
      hnext, htail]
    simp only [List.append_assoc, List.cons_append, List.nil_append]
  have hafter : ∀ l ∈ modelsTail ++ [""], l ≠ requestHead := by decide
  rw [storeBody, hparts, linesBetween_eq modelsHead_ne hafter, List.append_assoc]
  generalize w.sharedStore.entries.flatMap (fun e => sourceParts (fieldLine e)) = fields
  have hdrop : (storeNote ++ (fields ++ ["", ""])).drop 2 = fields ++ [""] ++ [""] := by
    simp [storeNote]
  rw [hdrop, List.dropLast_concat, List.dropLast_concat]

/-- **The class of shared values has one line for each key, in their order, exactly if no type has a
line break; with a line break in a type it has more lines.** -/
theorem sharedFields_iff (h : w.validate = .ok ()) (hne : w.sharedStore.entries ≠ []) :
    (List.Forall₂ StatesField w.sharedStore.keys (storeBody w.modelsFile) ↔
      ∀ e ∈ w.sharedStore.entries, OneLine (trim e.2)) ∧
      ((∃ e ∈ w.sharedStore.entries, ¬ OneLine (trim e.2)) →
        w.sharedStore.keys.length < (storeBody w.modelsFile).length) := by
  have hkeys : ∀ e ∈ w.sharedStore.entries, OneLine e.1 := fun e he =>
    oneLine_of_isFunctionName ((validate_eq_ok_iff.mp h).keys e.1 (List.mem_map_of_mem he))
  have hlength : w.sharedStore.keys.length = w.sharedStore.entries.length := List.length_map _
  have hone : ∀ e ∈ w.sharedStore.entries,
      (sourceParts (fieldLine e) = [fieldLine e] ↔ OneLine (trim e.2)) := fun e he =>
    sourceParts_eq_singleton_iff.trans (oneLine_fieldLine_iff (hkeys e he))
  obtain ⟨-, heq, hmore⟩ := flatMap_eq_map_iff (f := fun e => sourceParts (fieldLine e))
    (g := fieldLine) fun e (_ : e ∈ w.sharedStore.entries) => sourceParts_cases (fieldLine e)
  have hlonger : (∃ e ∈ w.sharedStore.entries, ¬ OneLine (trim e.2)) →
      w.sharedStore.keys.length < (storeBody w.modelsFile).length := by
    rintro ⟨e, he, hbreak⟩
    rw [storeBody_modelsFile hne, hlength]
    exact hmore ⟨e, he, fun hsingle => hbreak ((hone e he).mp hsingle)⟩
  refine ⟨⟨fun hfields e he => ?_, fun hall => ?_⟩, hlonger⟩
  · refine Decidable.byContradiction fun hbreak => ?_
    have hlt := hlonger ⟨e, he, hbreak⟩
    have hsame := hfields.length_eq
    omega
  · have hlines := heq.mpr fun e he => (hone e he).mpr (hall e he)
    rw [storeBody_modelsFile hne, hlines, Data.SortedMap.keys, List.forall₂_map_left_iff,
      List.forall₂_map_right_iff, List.forall₂_same]
    exact fun e _ => statesField_fieldLine e

/-- The draft and a note on it, with a type that goes on in a second line. -/
def sharedDesk : WorkflowSpec :=
  { reviewLoop with
    sharedStore := .ofList [("draft", "str"), ("note", "str] = None\n    admin: Optional[bool")] }

theorem sharedFields_sharedDesk :
    sharedDesk.validate = .ok () ∧
      ¬ List.Forall₂ StatesField sharedDesk.sharedStore.keys (storeBody sharedDesk.modelsFile) ∧
        sharedDesk.sharedStore.keys.length < (storeBody sharedDesk.modelsFile).length := by
  have hvalid : sharedDesk.validate = .ok () := rfl
  have hne : sharedDesk.sharedStore.entries ≠ [] := by decide
  have hbreak : ∃ e ∈ sharedDesk.sharedStore.entries, ¬ OneLine (trim e.2) := by decide +kernel
  obtain ⟨hiff, hmore⟩ := sharedFields_iff hvalid hne
  refine ⟨hvalid, fun hfields => ?_, hmore hbreak⟩
  obtain ⟨e, he, hnot⟩ := hbreak
  exact hnot (hiff.mp hfields e he)

end WorkflowSpec

end AgentFlow
