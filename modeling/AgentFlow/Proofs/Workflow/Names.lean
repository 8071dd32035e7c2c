import AgentFlow.Proofs.Text.Lines
import AgentFlow.Proofs.Workflow.Valid

/-!
# The characters of names

Names of nodes and labels of transitions are made of few characters, so that neither can be taken
for a blank, a bracket, a quote or a line break.

* `IsNodeName.ne_nil`, `IsNodeName.nameChar`: a node name is a word of name characters.
* `labelChar_of_isActionLabel`: a label may have dashes besides.
-/

namespace AgentFlow

open Text

/-- A name character is none of the other characters. -/
theorem ne_of_isNameChar {c d : Char} (hc : isNameChar c = true) (hd : isNameChar d = false) :
    c ≠ d := by
  rintro rfl
  exact Bool.noConfusion (hc.symm.trans hd)

theorem toNat_of_isNameChar {c : Char} (h : isNameChar c = true) :
    (48 ≤ c.toNat ∧ c.toNat ≤ 57) ∨ (65 ≤ c.toNat ∧ c.toNat ≤ 90) ∨ c.toNat = 95 ∨
      (97 ≤ c.toNat ∧ c.toNat ≤ 122) := by
  have hchar : isNameChar c = (decide (c.val ≥ 65 ∧ c.val ≤ 90) ||
      (decide (c.val ≥ 97) && decide (c.val ≤ 122)) ||
      (decide (c.val ≥ 48) && decide (c.val ≤ 57)) || c == '_') := rfl
  simp only [hchar, Bool.or_eq_true, Bool.and_eq_true, decide_eq_true_eq, beq_iff_eq, ge_iff_le,
    UInt32.le_iff_toNat_le] at h
  rcases h with ((h | h) | h) | rfl
  · exact .inr (.inl h)
  · exact .inr (.inr (.inr h))
  · exact .inl h
  · exact .inr (.inr (.inl rfl))

theorem toNat_lt_of_isNameChar {c : Char} (h : isNameChar c = true) : c.toNat < 128 := by
  have := toNat_of_isNameChar h
  omega

theorem isNameChar_of_isAlphanum {c : Char} (h : c.isAlphanum = true) : isNameChar c = true := by
  rw [isNameChar, h, Bool.true_or]

theorem isNameChar_of_isAlpha {c : Char} (h : c.isAlpha = true) : isNameChar c = true := by
  rw [isNameChar, Char.isAlphanum, h, Bool.true_or, Bool.true_or]

theorem not_isBlank_of_isNameChar {c : Char} (h : isNameChar c = true) : isBlank c = false := by
  have := toNat_of_isNameChar h
  simp only [isBlank, Bool.or_eq_false_iff, Bool.and_eq_false_imp, decide_eq_true_eq,
    decide_eq_false_iff_not, beq_eq_false_iff_ne]
  omega

theorem chars_of_isClassName {s : String} (h : isClassName s = true) :
    s.toList ≠ [] ∧ ∀ c ∈ s.toList, isNameChar c = true := by
  rw [isClassName, Bool.and_eq_true] at h
  cases hs : s.toList with
  | nil => rw [hs] at h; exact Bool.noConfusion h.1
  | cons c rest =>
    rw [hs, Bool.and_eq_true, List.all_eq_true] at h
    refine ⟨List.cons_ne_nil c rest, List.forall_mem_cons.mpr ⟨?_, h.1.2⟩⟩
    rw [isNameChar, Char.isAlphanum, Bool.or_assoc, Bool.or_comm c.isDigit, ← Bool.or_assoc]
    rw [h.1.1, Bool.true_or]

theorem not_keyword_of_isClassName {s : String} (h : isClassName s = true) : s ∉ codeKeywords := by
  rw [isClassName, Bool.and_eq_true] at h
  simpa using h.2

theorem IsNodeName.ne_nil {s : String} (h : IsNodeName s) : s.toList ≠ [] :=
  (chars_of_isClassName h.isClassName).1

theorem IsNodeName.nameChar {s : String} (h : IsNodeName s) :
    ∀ c ∈ s.toList, isNameChar c = true :=
  (chars_of_isClassName h.isClassName).2

def isLabelChar (c : Char) : Bool := isNameChar c || c == '-'

theorem labelChar_of_isActionLabel {s : String} (h : isActionLabel s = true) :
    s.toList ≠ [] ∧ ∀ c ∈ s.toList, isLabelChar c = true := by
  rw [isActionLabel, Bool.and_eq_true, List.all_eq_true] at h
  exact ⟨by simpa using h.1, h.2⟩

theorem not_isBlank_of_isLabelChar {c : Char} (h : isLabelChar c = true) : isBlank c = false := by
  rw [isLabelChar, Bool.or_eq_true] at h
  rcases h with h | h
  · exact not_isBlank_of_isNameChar h
  · rw [beq_iff_eq.mp h]; decide

theorem isLabelChar_of_isNameChar {c : Char} (h : isNameChar c = true) : isLabelChar c = true := by
  rw [isLabelChar, h, Bool.true_or]

theorem ne_of_isLabelChar {c d : Char} (hc : isLabelChar c = true) (hd : isLabelChar d = false) :
    c ≠ d := by
  rintro rfl
  exact Bool.noConfusion (hc.symm.trans hd)

/-! ### Names of transitions -/

namespace WorkflowSpec

variable {w : WorkflowSpec}

theorem mem_chain {names : List String} {e : EdgeSpec} (h : e ∈ chain names) :
    e.source ∈ names ∧ e.target ∈ names ∧ e.action = defaultAction := by
  induction names with
  | nil => exact absurd h List.not_mem_nil
  | cons a rest ih =>
    cases rest with
    | nil => exact absurd h List.not_mem_nil
    | cons b more =>
      rcases List.mem_cons.mp h with rfl | h
      · exact ⟨List.mem_cons_self, List.mem_cons_of_mem a List.mem_cons_self, rfl⟩
      · obtain ⟨hs, ht, ha⟩ := ih h
        exact ⟨List.mem_cons_of_mem a hs, List.mem_cons_of_mem a ht, ha⟩

/-- A chain leaves each of its names at most once. -/
theorem nodup_chain_sources {names : List String} (h : names.Nodup) :
    ((chain names).map (·.source)).Nodup := by
  induction names with
  | nil => exact List.nodup_nil
  | cons a rest ih =>
    cases rest with
    | nil => exact List.nodup_nil
    | cons b more =>
      rw [List.nodup_cons] at h
      rw [chain, List.map_cons, List.nodup_cons]
      refine ⟨fun ha => ?_, ih h.2⟩
      obtain ⟨e, he, hea⟩ := List.mem_map.mp ha
      have : e.source = a := hea
      exact h.1 (this ▸ (mem_chain he).1)

theorem isActionLabel_defaultAction : isActionLabel defaultAction = true := by decide

theorem defaultAction_ne_errorAction : defaultAction ≠ errorAction := by decide

/-- **The transitions of a valid specification, stated or not, are well formed.** -/
theorem Valid.resolvedEdge (h : w.Valid) {e : EdgeSpec} (he : e ∈ w.resolvedEdges) :
    e.Valid w.nodeNames := by
  rw [resolvedEdges] at he
  split at he
  · obtain ⟨hs, ht, ha⟩ := mem_chain he
    exact ⟨hs, ht, ha ▸ isActionLabel_defaultAction, ha ▸ defaultAction_ne_errorAction⟩
  · exact h.edges e he

/-- No two transitions leave a node on the same action. -/
theorem Valid.nodup_resolvedTriggers (h : w.Valid) : (w.resolvedEdges.map (·.trigger)).Nodup := by
  rw [resolvedEdges]
  split
  · have hs : (((chain w.nodeNames).map (·.trigger)).map Prod.fst).Nodup := by
      rw [List.map_map]
      exact nodup_chain_sources h.nodup_nodeNames
    exact List.Pairwise.of_map Prod.fst (fun _ _ hab he => hab (congrArg Prod.fst he)) hs
  · exact h.nodup_triggers

end WorkflowSpec

end AgentFlow
