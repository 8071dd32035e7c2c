import AgentFlow.Output.Documents
import AgentFlow.Proofs.Workflow.Names

/-!
# Texts that stay on one line

Free texts go into generated files in a form of their own: words with one space between each two,
or letters and digits only.  In each of these forms a text cannot break the line that it stands in.

* `oneLine_collapse`, `oneLine_docText`, `oneLine_cell`: any text, once its blanks are collapsed.
* `oneLine_flowClass`: the class of the flow, whatever the workflow is called.
* `IsNodeName.oneLine`, `oneLine_of_isActionLabel`: names and labels.
* `toLower_of_isUpper`, `toLower_of_not_isUpper`: characters of names in lower case.
-/

namespace AgentFlow

open Text Output

theorem oneLine_of_not_isBlank {s : String} (h : ∀ c ∈ s.toList, isBlank c = false) :
    OneLine s := by
  rw [oneLine_iff]
  intro c hc
  refine ⟨?_, ?_⟩ <;> rintro rfl <;> exact absurd (h _ hc) (by decide)

theorem oneLine_collapse (s : String) : OneLine (collapse s) := by
  refine oneLine_intercalate (by decide) fun w hw => oneLine_of_not_isBlank fun c hc => ?_
  obtain ⟨cs, hcs, rfl⟩ := List.mem_map.mp hw
  rw [String.toList_ofList] at hc
  exact (words_not_blank hcs).2 c hc

theorem oneLine_replaceChars {p : Char → Bool} {by' : List Char} {s : String} (hs : OneLine s)
    (hby : OneLine (String.ofList by')) : OneLine (replaceChars p by' s) := by
  rw [oneLine_iff] at hs hby ⊢
  rw [String.toList_ofList] at hby
  rw [replaceChars, String.toList_ofList]
  intro c hc
  obtain ⟨d, hd, hcd⟩ := List.mem_flatMap.mp hc
  split at hcd
  · exact hby c hcd
  · rw [List.mem_singleton.mp hcd]
    exact hs d hd

theorem oneLine_docText (s : String) : OneLine (docText s) :=
  oneLine_replaceChars (oneLine_replaceChars (oneLine_collapse s) (by decide)) (by decide)

theorem oneLine_cell (s : String) : OneLine (cell s) := by
  unfold cell
  simp only
  split
  · decide
  · exact oneLine_replaceChars (oneLine_collapse s) (by decide)

/-! ### Names -/

theorem oneLine_of_nameChar {s : String} (h : ∀ c ∈ s.toList, isNameChar c = true) : OneLine s :=
  oneLine_of_not_isBlank fun c hc => not_isBlank_of_isNameChar (h c hc)

theorem nameChar_of_isFunctionName {s : String} (h : isFunctionName s = true) :
    s.toList ≠ [] ∧ ∀ c ∈ s.toList, isNameChar c = true := by
  rw [isFunctionName, Bool.and_eq_true] at h
  exact chars_of_isClassName h.1

theorem oneLine_of_isFunctionName {s : String} (h : isFunctionName s = true) : OneLine s :=
  oneLine_of_nameChar (nameChar_of_isFunctionName h).2

theorem IsNodeName.oneLine {s : String} (h : IsNodeName s) : OneLine s :=
  oneLine_of_nameChar h.nameChar

theorem oneLine_of_isActionLabel {s : String} (h : isActionLabel s = true) : OneLine s :=
  oneLine_of_not_isBlank fun c hc =>
    not_isBlank_of_isLabelChar ((labelChar_of_isActionLabel h).2 c hc)

/-- Letters and digits stay letters and digits in upper case. -/
theorem isAlphanum_toUpper {c : Char} (h : c.isAlphanum = true) : c.toUpper.isAlphanum = true := by
  have hall : ∀ n < 128, (Char.ofNat n).isAlphanum = true →
      (Char.ofNat n).toUpper.isAlphanum = true := by decide
  have hlt := toNat_lt_of_isNameChar (isNameChar_of_isAlphanum h)
  rw [← Char.ofNat_toNat c] at h ⊢
  exact hall c.toNat hlt h

theorem toLower_of_not_isUpper {c : Char} (h : c.isUpper ≠ true) : c.toLower = c :=
  dif_neg fun hc => h (decide_eq_true hc)

/-- A capital letter is told by the letter in lower case, which is no underscore. -/
theorem toLower_of_isUpper {c : Char} (h : c.isUpper = true) :
    c.toLower ≠ '_' ∧ c.toLower.toUpper = c := by
  have hall : ∀ n < 128, (Char.ofNat n).isUpper = true →
      (Char.ofNat n).toLower ≠ '_' ∧ (Char.ofNat n).toLower.toUpper = Char.ofNat n := by decide
  have hletter : c.isAlpha = true := Bool.or_eq_true_iff.mpr (.inl h)
  have hlt := toNat_lt_of_isNameChar (isNameChar_of_isAlpha hletter)
  rw [← Char.ofNat_toNat c] at h ⊢
  exact hall c.toNat hlt h

/-- No other character is an underscore in lower case. -/
theorem toLower_ne_underscore {c : Char} (h : c ≠ '_') : c.toLower ≠ '_' := by
  by_cases hc : c.isUpper = true
  · exact (toLower_of_isUpper hc).1
  · rwa [toLower_of_not_isUpper hc]

theorem alphanum_of_mem_alphanumericWords {s w : String} (h : w ∈ alphanumericWords s) :
    ∀ c ∈ w.toList, c.isAlphanum = true := by
  intro c hc
  obtain ⟨cs, hcs, rfl⟩ := List.mem_map.mp (List.mem_filter.mp h).1
  rw [String.toList_ofList] at hc
  simpa using not_of_mem_splitWhere hcs c hc

theorem alphanum_capitalized {w : String} (h : ∀ c ∈ w.toList, c.isAlphanum = true) :
    ∀ c ∈ (capitalized w).toList, c.isAlphanum = true := by
  unfold capitalized
  cases hw : w.toList with
  | nil => simp
  | cons c rest =>
    rw [hw, List.forall_mem_cons] at h
    simp only [String.toList_ofList, List.forall_mem_cons]
    exact ⟨isAlphanum_toUpper h.1, h.2⟩

theorem alphanum_pascalCase (name : String) :
    ∀ c ∈ (pascalCase name).toList, c.isAlphanum = true := by
  have hjoined : ∀ c ∈ (String.join ((alphanumericWords name).map capitalized)).toList,
      c.isAlphanum = true := by
    intro c hc
    rw [String.toList_join] at hc
    obtain ⟨w, hw, hcw⟩ := List.mem_flatMap.mp hc
    obtain ⟨v, hv, rfl⟩ := List.mem_map.mp hw
    exact alphanum_capitalized (alphanum_of_mem_alphanumericWords hv) c hcw
  unfold pascalCase
  simp only
  split
  · decide
  · split
    · rw [String.toList_append, List.forall_mem_append]
      exact ⟨by decide, hjoined⟩
    · exact hjoined

theorem nameChar_flowClass (w : WorkflowSpec) : ∀ c ∈ w.flowClass.toList, isNameChar c = true := by
  rw [WorkflowSpec.flowClass, String.toList_append, List.forall_mem_append]
  exact ⟨fun c hc => isNameChar_of_isAlphanum (alphanum_pascalCase w.name c hc), by decide⟩

theorem oneLine_flowClass (w : WorkflowSpec) : OneLine w.flowClass :=
  oneLine_of_nameChar (nameChar_flowClass w)

end AgentFlow
